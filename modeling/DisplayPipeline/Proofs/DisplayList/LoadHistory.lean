import DisplayPipeline.Proofs.DisplayList.Contributions

namespace DisplayPipeline

/-- The load that an instruction makes, to the place of its tile and from a texel of the image on. -/
def Scene.loadOf? (scene : Scene) : Instruction → Option TextureMemoryLoad
  | .texture (.loadBlock tile column row) =>
    some
      { start := (scene.registers.texture.tiles.get tile).layout.start
        address := scene.registers.texture.image.texelAddress column row
        stride := none }
  | .texture (.loadTile tile bounds) =>
    some
      { start := (scene.registers.texture.tiles.get tile).layout.start
        address := scene.registers.texture.image.texelAddress (bounds.left / 4) (bounds.top / 4)
        stride := some scene.registers.texture.image.rowBytes }
  | _ => none

/-- The latest load to a place, or else the latest of all. -/
def latestLoad? (made : List TextureMemoryLoad) (start : Nat) : Option TextureMemoryLoad :=
  (made.reverse.find? (·.start = start)).or made.getLast?

/-- Of the loads that were made the latest to each place is kept, the latest of all in front. -/
structure KeepsLatest (made kept : List TextureMemoryLoad) : Prop where
  at_place : ∀ start, kept.find? (·.start = start) = made.reverse.find? (·.start = start)
  latest : kept.head? = made.getLast?

theorem keepsLatest_nil : KeepsLatest [] [] := ⟨fun _ => rfl, rfl⟩

section Keeping

variable {made : List TextureMemoryLoad} {t : TextureRegisters}

theorem KeepsLatest.loadFor? (h : KeepsLatest made t.loads) (tile : Tile) :
    t.loadFor? tile = latestLoad? made tile.layout.start := by
  rw [TextureRegisters.loadFor?, latestLoad?, h.at_place, h.latest]

private theorem KeepsLatest.recordLoad (h : KeepsLatest made t.loads) (load : TextureMemoryLoad) :
    KeepsLatest (made ++ [load]) (t.recordLoad load).loads where
  latest := by simp [TextureRegisters.recordLoad]
  at_place start := by
    rw [List.reverse_append, List.reverse_singleton, List.singleton_append, List.find?_cons,
      ← h.at_place, TextureRegisters.recordLoad, List.find?_cons]
    by_cases hstart : load.start = start
    · simp [hstart]
    · have hothers : (fun other : TextureMemoryLoad => !decide (other.start = load.start) &&
          decide (other.start = start)) = fun other => decide (other.start = start) := by
        funext other
        by_cases hother : other.start = start
        · simp [hother, Ne.symm hstart]
        · simp [hother]
      simp [hstart, List.find?_filter, hothers]

end Keeping

def Contribution.loads : Contribution TextureMemoryLoad where
  of? := Scene.loadOf?
  leadsOn {scene instruction load} h after := by
    cases instruction with
    | texture change => exact ⟨after, rfl⟩
    | _ => cases h

theorem keptBy_keepsLatest :
    Contribution.loads.KeptBy fun made r => KeepsLatest made r.texture.loads := by
  intro made scene instruction h
  have hsame : KeepsLatest (made ++ []) scene.registers.texture.loads := by rwa [List.append_nil]
  cases instruction with
  | texture change =>
    cases change with
    | loadBlock tile column row => exact h.recordLoad _
    | loadTile tile bounds =>
      exact KeepsLatest.recordLoad (t := scene.registers.texture.setBounds tile bounds) h _
    | _ => exact hsame
  | _ => exact hsame

variable {σ : Type}

def Machine.loadsFor (o : Outlet σ) (ram : Ram) (settings : ListSettings) (budget : Nat)
    (m : Machine σ) : List TextureMemoryLoad :=
  m.contributions .loads o ram settings budget

namespace Hosting

/-- The loads that display lists make as calls are served. -/
def loads (o : Outlet σ) (h : Hosting σ) (calls : List HostCall) : List TextureMemoryLoad :=
  (h.turns o calls).flatMap fun turn => turn.1.contributionsOf .loads o turn.2

/-- Whatever a host asked for, the registers keep the latest of the loads that were made. -/
theorem keepsLatest_serveAll {o : Outlet σ} (calls : List HostCall) {h : Hosting σ}
    (hkept : KeepsLatest [] h.processor.registers.texture.loads) :
    KeepsLatest (h.loads o calls) (h.serveAll o calls).processor.registers.texture.loads := by
  refine serveAll_accumulates (R := fun past h =>
    KeepsLatest (past.flatMap fun turn => turn.1.contributionsOf .loads o turn.2)
      h.processor.registers.texture.loads) ?_ calls hkept
  intro past h call hpast
  rw [List.flatMap_append, List.flatMap_singleton]
  by_cases hcall : call = .endFrame
  · rw [hcall, contributionsOf, List.append_nil]
    change KeepsLatest _ (h.processor.endFrame o h.sink).1.registers.texture.loads
    obtain hended | ⟨hsame, -⟩ := h.processor.registers_endFrame o h.sink
    · rwa [hended]
    · rwa [hsame]
  · exact contributionsOf_kept keptBy_keepsLatest hcall hpast

end Hosting

end DisplayPipeline
