import DisplayPipeline.Combiner.Key
import DisplayPipeline.Combiner.Uniforms
import DisplayPipeline.Device.Capability

/-!
# Combiner programs as text

The WGSL module of a combiner configuration. Between an opening and an ending, which depend on the
key alone, stands one group of lines for each active cycle.
-/

namespace DisplayPipeline.Combiner

/-- How faithfully inputs without a cheap equivalent are computed. -/
inductive Accuracy where
  | fast
  | accurate
deriving DecidableEq, Repr, Inhabited

namespace ColorInput

def expression : ColorInput → String
  | combined => "combined.rgb"
  | texel0 => "texel0.rgb"
  | texel1 => "texel1.rgb"
  | primitive => "u.prim_color.rgb"
  | shade => "shade.rgb"
  | environment => "u.env_color.rgb"
  | one => "vec3<f32>(1.0)"
  | noise => "vec3<f32>(noise)"
  | zero => "vec3<f32>(0.0)"
  | keyCenter => "u.key_center.rgb"
  | k4 => "vec3<f32>(u.params.y)"
  | keyScale => "u.key_scale.rgb"
  | combinedAlpha => "vec3<f32>(combined.a)"
  | texel0Alpha => "vec3<f32>(texel0.a)"
  | texel1Alpha => "vec3<f32>(texel1.a)"
  | primitiveAlpha => "vec3<f32>(u.prim_color.a)"
  | shadeAlpha => "vec3<f32>(shade.a)"
  | environmentAlpha => "vec3<f32>(u.env_color.a)"
  | lodFraction => "vec3<f32>(lod_frac)"
  | primitiveLodFraction => "vec3<f32>(u.params.x)"
  | k5 => "vec3<f32>(u.params.z)"

end ColorInput

namespace AlphaInput

def expression : AlphaInput → String
  | combined => "combined.a"
  | texel0 => "texel0.a"
  | texel1 => "texel1.a"
  | primitive => "u.prim_color.a"
  | shade => "shade.a"
  | environment => "u.env_color.a"
  | one => "1.0"
  | zero => "0.0"
  | lodFraction => "lod_frac"
  | primitiveLodFraction => "u.params.x"

end AlphaInput

namespace Shader

def ofLines (lines : List String) : String := String.join (lines.map (· ++ "\n"))

/-- Declarations and the vertex stage, which all programs share. -/
def preamble (textured : Bool) : List String :=
  ["struct CombinerUniforms \x7b"] ++
  UniformLayout.fieldNames.map (fun name => "  " ++ name ++ ": vec4<f32>,") ++
  ["\x7d",
    "",
    "@group(0) @binding(0) var<uniform> u: CombinerUniforms;"] ++
  (if textured then
    ["@group(1) @binding(0) var tex0: texture_2d<f32>;",
      "@group(1) @binding(1) var tex1: texture_2d<f32>;",
      "@group(1) @binding(2) var samp: sampler;"]
  else []) ++
  ["",
    "struct VertexIn \x7b",
    "  @location(0) position: vec4<f32>,",
    "  @location(1) color: vec4<f32>,",
    "  @location(2) uv: vec2<f32>,",
    "\x7d",
    "",
    "struct VertexOut \x7b",
    "  @builtin(position) position: vec4<f32>,",
    "  @location(0) shade: vec4<f32>,",
    "  @location(1) uv: vec2<f32>,",
    "\x7d",
    "",
    "@vertex",
    "fn vs_main(input: VertexIn) -> VertexOut \x7b",
    "  var out: VertexOut;",
    "  out.position = input.position;",
    "  out.shade = input.color;",
    "  out.uv = input.uv;",
    "  return out;",
    "\x7d",
    ""]

def fragmentStart : List String :=
  ["@fragment",
    "fn fs_main(input: VertexOut) -> @location(0) vec4<f32> \x7b"]

/-- The sampled texels and the shade. Without textures, texels are white. -/
def samples (textured : Bool) : List String :=
  (if textured then
    ["  let texel0 = textureSample(tex0, samp, input.uv);",
      "  let texel1 = textureSample(tex1, samp, input.uv);"]
  else
    ["  let texel0 = vec4<f32>(1.0);",
      "  let texel1 = vec4<f32>(1.0);"]) ++
  ["  let shade = input.shade;"]

def noiseFunction : List String :=
  ["fn rand_noise(p: vec2<f32>) -> f32 \x7b",
    "  return fract(sin(dot(p, vec2<f32>(12.9898, 78.233))) * 43758.5453);",
    "\x7d",
    ""]

def variedInputs (accuracy : Accuracy) (capabilities : Capabilities) : List String :=
  match accuracy with
  | .fast => ["  let noise: f32 = 0.5;", "  let lod_frac = u.params.x;"]
  | .accurate =>
    "  let noise = rand_noise(input.position.xy);" ::
      if capabilities.includes .shaderDerivatives then
        ["  let footprint = max(length(dpdx(input.uv)), length(dpdy(input.uv)));",
          "  let lod_frac = fract(clamp(log2(max(footprint * 256.0, 1.0)), 0.0, 7.0));"]
      else ["  let lod_frac = u.params.x;"]

/-- The expression `(a - b) * c + d` over the expressions of its inputs. -/
def formula {α : Type} (expression : α → String) (cycle : Cycle α) : String :=
  "(" ++ expression cycle.a ++ " - " ++ expression cycle.b ++ ") * " ++ expression cycle.c ++
    " + " ++ expression cycle.d

def cycleLines (n : Nat) (color : Cycle ColorInput) (alpha : Cycle AlphaInput) : List String :=
  ["  let c" ++ toString n ++ " = clamp(" ++ formula ColorInput.expression color ++
      ", vec3<f32>(0.0), vec3<f32>(1.0));",
    "  let a" ++ toString n ++ " = clamp(" ++ formula AlphaInput.expression alpha ++ ", 0.0, 1.0);",
    "  combined = vec4<f32>(c" ++ toString n ++ ", a" ++ toString n ++ ");"]

/-- The lines of the cycles that a key makes active. -/
def activeCycles (key : Key) (stages : Stages) : List String :=
  cycleLines 0 stages.color.first stages.alpha.first ++
    if key.isTwoCycle then cycleLines 1 stages.color.second stages.alpha.second else []

/-- The ending: coverage, alpha threshold and fog, as the flags ask. -/
def ending (flags : Flags) : List String :=
  ["  var out_color = combined;"] ++
  (if flags.has Flags.alphaCoverageSelect && !flags.has Flags.coverageTimesAlpha then
    ["  out_color.a = 1.0;"]
  else []) ++
  (if flags.has Flags.alphaCompare then
    ["  if (out_color.a < u.params.w) \x7b",
      "    discard;",
      "  \x7d"]
  else []) ++
  (if flags.has Flags.fog then
    ["  out_color = vec4<f32>(mix(out_color.rgb, u.fog_color.rgb, shade.a), out_color.a);"]
  else []) ++
  ["  return out_color;",
    "\x7d"]

def opening (key : Key) (accuracy : Accuracy) (capabilities : Capabilities) : List String :=
  ["// combiner " ++ key.hex] ++
  preamble key.isTextured ++
  (if accuracy = .accurate then noiseFunction else []) ++
  fragmentStart ++
  samples key.isTextured ++
  variedInputs accuracy capabilities ++
  ["  var combined = vec4<f32>(0.0);"]

def combine (stages : Stages) (key : Key) (accuracy : Accuracy) (capabilities : Capabilities) :
    String :=
  ofLines (opening key accuracy capabilities ++ activeCycles key stages ++ ending key.flags)

/-- Whether an active color cycle reads a texel. -/
def readsTexel (color : Cycles ColorInput) (key : Key) : Bool :=
  (color.toList.take (if key.isTwoCycle then 2 else 1)).any fun c =>
    c.reads .texel0 || c.reads .texel1 || c.reads .texel0Alpha || c.reads .texel1Alpha

/-- The program that keeps only the dominant term: the first texel if the color reads any, else
the shade. -/
def passThrough (color : Cycles ColorInput) (key : Key) : String :=
  ofLines (["// passthrough " ++ key.hex] ++
    preamble key.isTextured ++
    fragmentStart ++
    samples key.isTextured ++
    [if readsTexel color key then "  var combined = texel0 * shade;"
      else "  var combined = shade;"] ++
    ending (key.flags.only (Flags.alphaCompare ||| Flags.fog)))

end Shader

end DisplayPipeline.Combiner
