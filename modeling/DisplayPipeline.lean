import DisplayPipeline.Combiner.Key
import DisplayPipeline.Combiner.Mux
import DisplayPipeline.Combiner.Programs
import DisplayPipeline.Combiner.Shader
import DisplayPipeline.Combiner.Uniforms
import DisplayPipeline.Command.Basic
import DisplayPipeline.Command.Decode
import DisplayPipeline.Command.Encode
import DisplayPipeline.Console.Ram
import DisplayPipeline.Console.Segments
import DisplayPipeline.Device.Basic
import DisplayPipeline.Device.Capability
import DisplayPipeline.Device.ColorRead
import DisplayPipeline.Device.Draw
import DisplayPipeline.Device.Target
import DisplayPipeline.Digest
import DisplayPipeline.DisplayList.Delivery
import DisplayPipeline.DisplayList.Image
import DisplayPipeline.DisplayList.Instruction
import DisplayPipeline.DisplayList.Opcode
import DisplayPipeline.DisplayList.OpcodeSet
import DisplayPipeline.DisplayList.Outlet
import DisplayPipeline.DisplayList.Processor
import DisplayPipeline.DisplayList.Registers.Basic
import DisplayPipeline.DisplayList.Registers.Geometry
import DisplayPipeline.DisplayList.Registers.Render
import DisplayPipeline.DisplayList.Registers.Texture
import DisplayPipeline.DisplayList.Request
import DisplayPipeline.DisplayList.TextureFetch
import DisplayPipeline.DisplayList.Tile
import DisplayPipeline.Event
import DisplayPipeline.Geometry.Lighting
import DisplayPipeline.Geometry.Matrices
import DisplayPipeline.Geometry.Viewport
import DisplayPipeline.Geometry.Visibility
import DisplayPipeline.Numeric.Half
import DisplayPipeline.Numeric.Rounding
import DisplayPipeline.Numeric.Single
import DisplayPipeline.Numeric.Unorm
import DisplayPipeline.Numeric.Vector
import DisplayPipeline.Proofs.Ring.Arena
import DisplayPipeline.Proofs.Ring.Backlog
import DisplayPipeline.Proofs.Ring.Consistency
import DisplayPipeline.Proofs.Ring.Layout
import DisplayPipeline.Proofs.Ring.Operations
import DisplayPipeline.Proofs.Ring.Traffic
import DisplayPipeline.Proofs.Ring.Invariant
import DisplayPipeline.Renderer.Basic
import DisplayPipeline.Renderer.Consume
import DisplayPipeline.Ring.Pool
import DisplayPipeline.Session
import DisplayPipeline.Settings.Basic
import DisplayPipeline.Settings.Reader
import DisplayPipeline.Settings.Text
import DisplayPipeline.Texel.Channel
import DisplayPipeline.Texel.Color
import DisplayPipeline.Texel.Decode
import DisplayPipeline.Texel.Diffusion
import DisplayPipeline.Texel.Encode
import DisplayPipeline.Texel.Format
import DisplayPipeline.Texel.Packing
import DisplayPipeline.Texel.Palette
import DisplayPipeline.Text.Duration
import DisplayPipeline.Text.Hex
import DisplayPipeline.Texture.Cache
import DisplayPipeline.Texture.Source
import DisplayPipeline.Word
import DisplayPipeline.Proofs.Ring.Contents
import DisplayPipeline.Proofs.Ring.Fifo
import DisplayPipeline.Proofs.DisplayList.Acceptance
import DisplayPipeline.Proofs.DisplayList.TextureFreshness
import DisplayPipeline.Proofs.DisplayList.TextureDelivery
import DisplayPipeline.Proofs.DisplayList.FreshDraws
import DisplayPipeline.Proofs.DisplayList.Refusal
import DisplayPipeline.Proofs.DisplayList.Course
import DisplayPipeline.Proofs.DisplayList.NestedReading
import DisplayPipeline.Proofs.DisplayList.Drawings
import DisplayPipeline.Proofs.DisplayList.Batching
import DisplayPipeline.Proofs.DisplayList.ToldRegisters
import DisplayPipeline.Proofs.DisplayList.Story
import DisplayPipeline.Proofs.DisplayList.RegisterDelivery
import DisplayPipeline.Proofs.WordBytes
import DisplayPipeline.Proofs.Command.Reading
import DisplayPipeline.Proofs.Command.RoundTrip
import DisplayPipeline.Proofs.Command.Inversion
import DisplayPipeline.Proofs.Command.ByteUse
import DisplayPipeline.Proofs.Command.Language
import DisplayPipeline.Proofs.DisplayList.IndexedTiles
import DisplayPipeline.Proofs.DisplayList.PaletteDelivery
import DisplayPipeline.Proofs.DisplayList.Preservation
import DisplayPipeline.Proofs.DisplayList.TextureSupply
import DisplayPipeline.Proofs.Texture.Fetching
import DisplayPipeline.Proofs.Texture.Holdings
import DisplayPipeline.Proofs.Texture.Recency
import DisplayPipeline.Proofs.Texture.Identity
import DisplayPipeline.Proofs.Texture.Serving
import DisplayPipeline.Proofs.DisplayList.Contributions
import DisplayPipeline.Proofs.DisplayList.Conversation
import DisplayPipeline.Proofs.DisplayList.Hosting
import DisplayPipeline.Proofs.DisplayList.SharedPool
import DisplayPipeline.Proofs.DisplayList.WriteReports
import DisplayPipeline.Proofs.DisplayList.Gathering
import DisplayPipeline.Proofs.Renderer.Loop
import DisplayPipeline.Proofs.Renderer.Interleaving
import DisplayPipeline.Proofs.Renderer.SampledMemory
import DisplayPipeline.Proofs.Renderer.Drawing
import DisplayPipeline.Proofs.Renderer.Draining
import DisplayPipeline.Proofs.Combiner.LivePrograms
import DisplayPipeline.Proofs.Renderer.Requests
import DisplayPipeline.Proofs.Renderer.LiveHandles
import DisplayPipeline.Proofs.DisplayList.Retelling
import DisplayPipeline.Proofs.DisplayList.FinalRefusal
import DisplayPipeline.Proofs.DisplayList.Abandonment
import DisplayPipeline.Proofs.Ring.Shutdown
import DisplayPipeline.Proofs.Combiner.ProgramText
import DisplayPipeline.Proofs.Combiner.Histories
import DisplayPipeline.Proofs.Combiner.Provenance
import DisplayPipeline.Proofs.Renderer.Screen
import DisplayPipeline.Proofs.Renderer.Painting
import DisplayPipeline.Proofs.Ring.Pointers
import DisplayPipeline.Proofs.Texel.Exactness
import DisplayPipeline.Proofs.Texel.Rows
import DisplayPipeline.Proofs.Texel.RoundTrip
import DisplayPipeline.Proofs.Texel.BitFields
import DisplayPipeline.Proofs.Texel.Pixels
import DisplayPipeline.Proofs.Texel.CarriedError
import DisplayPipeline.Proofs.DisplayList.Essence
import DisplayPipeline.Proofs.DisplayList.Indifference
import DisplayPipeline.Proofs.DisplayList.Bounds
import DisplayPipeline.Proofs.Checked.Operations
import DisplayPipeline.Proofs.Checked.Decoding
import DisplayPipeline.Proofs.Checked.Registers
import DisplayPipeline.Proofs.Checked.Textures
import DisplayPipeline.Proofs.Checked.Requests
import DisplayPipeline.Proofs.Checked.Delivery
import DisplayPipeline.Proofs.Checked.Running
import DisplayPipeline.Proofs.Checked.Diffusion
import DisplayPipeline.Proofs.Texel.EncodedTexels
import DisplayPipeline.Proofs.DisplayList.LoadHistory
import DisplayPipeline.Proofs.DisplayList.SampledTexels
import DisplayPipeline.Proofs.Renderer.TargetCopies
import DisplayPipeline.Proofs.Renderer.ColorReads
import DisplayPipeline.Proofs.Renderer.ReadbackRows
import DisplayPipeline.Proofs.Combiner.DistinctPrograms
import DisplayPipeline.Proofs.Combiner.MuxFields
import DisplayPipeline.Proofs.Ring.Room
import DisplayPipeline.Proofs.Renderer.Accounting
import DisplayPipeline.Proofs.DisplayList.ColorImages
import DisplayPipeline.Proofs.Geometry.MatrixStack
import DisplayPipeline.Proofs.Geometry.Culling
import DisplayPipeline.Proofs.Ring.Alignment
import DisplayPipeline.Proofs.Console.WrappedReads
import DisplayPipeline.Proofs.DisplayList.ModeBits
import DisplayPipeline.Proofs.DisplayList.StrayWarnings
import DisplayPipeline.Proofs.DisplayList.UnknownOpcodes
