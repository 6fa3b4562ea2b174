import DisplayPipeline.Proofs.DisplayList.Hosting
import Mathlib.Data.List.Infix
import Mathlib.Order.Basic

/-!
# Nesting of saved modelviews

Matrices are applied and taken back in any order. What one operation does to the saved modelviews is to
add one in front or to take some away from there, so that as long as their number stays at or above
what it was, those of before lie untouched beneath. A saving that took place is undone that way by
taking back one. Nothing is assumed of the product of matrices.
-/

namespace DisplayPipeline

inductive MatrixOp where
  | apply (matrix : Mat4) (use : MatrixUse)
  | pop (count : Nat)
deriving DecidableEq, Repr

def MatrixOp.onProjection : MatrixOp → Bool
  | apply _ use => use.projection
  | pop _ => false

namespace Matrices

def perform (m : Matrices) : MatrixOp → Matrices
  | .apply matrix use => m.apply matrix use
  | .pop count => m.pop count

def performAll (m : Matrices) (ops : List MatrixOp) : Matrices := ops.foldl perform m

/-- From the start to the end of the operations no fewer modelviews are saved than so many. -/
def StaysAbove (m : Matrices) (floor : Nat) (ops : List MatrixOp) : Prop :=
  ∀ done, done <+: ops → floor ≤ (m.performAll done).depth

variable {m : Matrices} {op : MatrixOp} {ops : List MatrixOp} {matrix : Mat4} {use : MatrixUse}

private theorem performAll_append (m : Matrices) (ops more : List MatrixOp) :
    m.performAll (ops ++ more) = (m.performAll ops).performAll more :=
  List.foldl_append

instance {floor : Nat} : Decidable (m.StaysAbove floor ops) :=
  decidable_of_iff (∀ done ∈ ops.inits, floor ≤ (m.performAll done).depth)
    (forall_congr' fun done => imp_congr_left (List.mem_inits done ops))

/-! ## One operation -/

private theorem saved_restore (m : Matrices) (count : Nat) :
    (m.restore count).saved = m.saved.drop count := by
  induction count generalizing m with
  | zero => rfl
  | succ count ih =>
    rw [restore]
    cases hsaved : m.saved with
    | nil => exact hsaved
    | cons modelview saved => exact ih _

private theorem projection_restore (m : Matrices) (count : Nat) :
    (m.restore count).projection = m.projection := by
  induction count generalizing m with
  | zero => rfl
  | succ count ih =>
    rw [restore]
    cases m.saved with
    | nil => rfl
    | cons modelview saved => exact ih _

private theorem dropsSave_iff :
    m.dropsSave use = true ↔ use.projection = false ∧ use.save = true ∧ maxDepth ≤ m.depth := by
  simp [dropsSave, isFull, and_assoc]

private theorem apply_projection (h : use.projection = true) (m : Matrices) (matrix : Mat4) :
    (m.apply matrix use).projection = joined matrix use m.projection ∧
      (m.apply matrix use).modelview = m.modelview ∧ (m.apply matrix use).saved = m.saved := by
  rw [apply, if_pos h]
  exact ⟨rfl, rfl, rfl⟩

private theorem apply_modelview (h : use.projection = false) (m : Matrices) (matrix : Mat4) :
    (m.apply matrix use).modelview = joined matrix use m.modelview ∧
      (m.apply matrix use).projection = m.projection ∧
      (m.apply matrix use).saved =
        if use.save = true ∧ m.dropsSave use = false then m.modelview :: m.saved else m.saved := by
  rw [apply, if_neg (Bool.eq_false_iff.mp h)]
  refine ⟨rfl, rfl, ?_⟩
  cases hsave : use.save <;> simp [recombine, dropsSave, h, hsave]

private theorem combined_perform (m : Matrices) (op : MatrixOp) :
    (m.perform op).combined = (m.perform op).modelview.mul (m.perform op).projection := by
  cases op with
  | apply matrix use =>
    rw [perform, apply]
    split <;> rfl
  | pop count => rfl

private theorem perform_onProjection (h : op.onProjection = true) (m : Matrices) :
    (m.perform op).modelview = m.modelview ∧ (m.perform op).saved = m.saved := by
  cases op with
  | apply matrix use => exact (apply_projection h m matrix).2
  | pop count => cases h

private theorem projection_perform (h : op.onProjection = false) (m : Matrices) :
    (m.perform op).projection = m.projection := by
  cases op with
  | apply matrix use => exact (apply_modelview h m matrix).2.1
  | pop count => exact m.projection_restore count

private theorem saved_perform (m : Matrices) (op : MatrixOp) :
    (m.depth < maxDepth ∧ (m.perform op).saved = m.modelview :: m.saved) ∨
      (m.perform op).saved <:+ m.saved := by
  cases op with
  | apply matrix use =>
    cases hprojection : use.projection with
    | true => exact .inr ((apply_projection hprojection m matrix).2.2 ▸ List.suffix_rfl)
    | false =>
      obtain ⟨-, -, hsaved⟩ := apply_modelview hprojection m matrix
      by_cases hsaves : use.save = true ∧ m.dropsSave use = false
      · rw [if_pos hsaves] at hsaved
        have hroom : ¬ maxDepth ≤ m.depth := fun hfull =>
          Bool.eq_false_iff.mp hsaves.2 (dropsSave_iff.mpr ⟨hprojection, hsaves.1, hfull⟩)
        exact .inl ⟨Nat.lt_of_not_le hroom, hsaved⟩
      · rw [if_neg hsaves] at hsaved
        exact .inr (hsaved ▸ List.suffix_rfl)
  | pop count =>
    refine .inr ?_
    change (m.restore count).saved <:+ m.saved
    rw [saved_restore]
    exact List.drop_suffix count m.saved

private theorem depth_perform_le (h : m.depth ≤ maxDepth) (op : MatrixOp) :
    (m.perform op).depth ≤ maxDepth := by
  obtain ⟨hroom, hsaved⟩ | hsuffix := m.saved_perform op
  · rw [depth, hsaved]
    exact hroom
  · exact hsuffix.length_le.trans h

private theorem suffix_perform {base : List Mat4} (h : base <:+ m.saved)
    (hfloor : base.length ≤ (m.perform op).depth) : base <:+ (m.perform op).saved := by
  obtain ⟨-, hsaved⟩ | hsuffix := m.saved_perform op
  · rw [hsaved]
    exact h.trans (List.suffix_cons _ _)
  · exact List.suffix_of_suffix_length_le h hsuffix hfloor

/-! ## Sequences of operations -/

private theorem depth_performAll_le (h : m.depth ≤ maxDepth) (ops : List MatrixOp) :
    (m.performAll ops).depth ≤ maxDepth := by
  induction ops generalizing m with
  | nil => exact h
  | cons op ops ih => exact ih (depth_perform_le h op)

private theorem StaysAbove.tail {floor : Nat} (h : m.StaysAbove floor (op :: ops)) :
    (m.perform op).StaysAbove floor ops :=
  fun done hdone => h (op :: done) ((List.cons_prefix_cons).mpr ⟨rfl, hdone⟩)

-- By induction on the operations: what was saved first stays a suffix of what is saved.
private theorem suffix_performAll {base : List Mat4} (h : base <:+ m.saved)
    (habove : m.StaysAbove base.length ops) : base <:+ (m.performAll ops).saved := by
  induction ops generalizing m with
  | nil => exact h
  | cons op ops ih =>
    have hfirst : base <:+ (m.perform op).saved :=
      suffix_perform h (habove.tail [] (List.nil_prefix))
    exact ih hfirst habove.tail

/-- Where the number of saved modelviews comes back to what it was and was not below, so do they. -/
theorem saved_performAll_of_staysAbove (habove : m.StaysAbove m.depth ops)
    (hends : (m.performAll ops).depth = m.depth) : (m.performAll ops).saved = m.saved :=
  ((suffix_performAll List.suffix_rfl habove).eq_of_length hends.symm).symm

private theorem pop_one {modelview : Mat4} {saved : List Mat4} (h : m.saved = modelview :: saved) :
    (m.pop 1).modelview = modelview ∧ (m.pop 1).saved = saved := by
  rw [pop, restore, h]
  exact ⟨rfl, rfl⟩

/-- Whatever was applied and taken back, at most ten modelviews are saved. Each operation refreshes the
product, and leaves alone the projection or else the modelview and what is saved. Only a saving that is
asked for with ten saved is left out, and the matrix is applied all the same. A saving that took place
is undone by taking back one, whatever was done since, if no more was taken back at any time than was
saved since, and as much in all. -/
theorem performAll_nests (ops : List MatrixOp) :
    let m := ({} : Matrices).performAll ops
    m.depth ≤ 10 ∧
    (∀ op : MatrixOp,
      (m.perform op).combined = (m.perform op).modelview.mul (m.perform op).projection ∧
      if op.onProjection then (m.perform op).modelview = m.modelview ∧ (m.perform op).saved = m.saved
      else (m.perform op).projection = m.projection) ∧
    ∀ (matrix : Mat4) (use : MatrixUse),
      let applied := m.apply matrix use
      (m.dropsSave use = true ↔ use.projection = false ∧ use.save = true ∧ m.depth = 10) ∧
      (if use.projection then applied.projection = joined matrix use m.projection
        else applied.modelview = joined matrix use m.modelview ∧
          applied.saved =
            if use.save = true ∧ m.dropsSave use = false then m.modelview :: m.saved else m.saved) ∧
      (use.projection = false → use.save = true → m.dropsSave use = false →
        ∀ between, applied.StaysAbove applied.depth between →
          (applied.performAll between).depth = applied.depth →
          ((applied.performAll between).pop 1).modelview = m.modelview ∧
            ((applied.performAll between).pop 1).saved = m.saved) := by
  intro m
  have hdepth : m.depth ≤ maxDepth := depth_performAll_le (Nat.zero_le _) ops
  refine ⟨hdepth, fun op => ⟨m.combined_perform op, ?_⟩, fun matrix use => ?_⟩
  · split
    case isTrue h => exact perform_onProjection h m
    case isFalse h => exact projection_perform (Bool.eq_false_iff.mpr h) m
  · intro applied
    refine ⟨?_, ?_, fun hprojection hsave hkept between habove hends => ?_⟩
    · rw [dropsSave_iff, ← Nat.le_antisymm_iff.trans (and_iff_right hdepth)]
      rfl
    · split
      case isTrue h => exact (apply_projection h m matrix).1
      case isFalse h =>
        obtain ⟨hmodelview, -, hsaved⟩ := apply_modelview (Bool.eq_false_iff.mpr h) m matrix
        exact ⟨hmodelview, hsaved⟩
    · obtain ⟨-, -, hsaved⟩ := apply_modelview hprojection m matrix
      rw [if_pos ⟨hsave, hkept⟩] at hsaved
      exact pop_one ((saved_performAll_of_staysAbove habove hends).trans hsaved)

/-- Multiplies the modelview by a matrix and saves it before. -/
def saving : MatrixOp :=
  .apply ⟨⟨2, 0, 0, 0⟩, ⟨0, 2, 0, 0⟩, ⟨0, 0, 2, 0⟩, ⟨1, 0, 0, 1⟩⟩ ⟨false, false, true⟩

theorem performAll_nests_overfull :
    let m := ({} : Matrices).performAll [.pop 3, saving]
    let between := List.replicate 9 saving ++ [.apply .identity ⟨true, true, true⟩, .pop 8]
    m.dropsSave ⟨false, false, true⟩ = false ∧
      ((m.perform saving).performAll (between.take 8)).dropsSave ⟨false, false, true⟩ = true ∧
      (m.perform saving).StaysAbove (m.perform saving).depth between ∧
      ((m.perform saving).performAll between).depth = (m.perform saving).depth ∧
      (((m.perform saving).performAll between).pop 1).modelview = m.modelview ∧
      (((m.perform saving).performAll between).pop 1).saved = m.saved := by
  intro m between
  have hkept : m.dropsSave ⟨false, false, true⟩ = false := by decide +kernel
  have hdropped : ((m.perform saving).performAll (between.take 8)).dropsSave ⟨false, false, true⟩ =
      true := by decide +kernel
  have habove : (m.perform saving).StaysAbove (m.perform saving).depth between := by decide +kernel
  have hends : ((m.perform saving).performAll between).depth = (m.perform saving).depth := by
    decide +kernel
  obtain ⟨-, -, hmatrix⟩ := performAll_nests [.pop 3, saving]
  obtain ⟨-, -, hrestores⟩ := hmatrix _ ⟨false, false, true⟩
  exact ⟨hkept, hdropped, habove, hends, hrestores rfl rfl hkept between habove hends⟩

end Matrices

/-! ## Display lists -/

namespace Scene

private def matrixOps (scene : Scene) : Instruction → List MatrixOp
  | .geometry (.applyMatrix use address) =>
    [.apply (.load scene.ram (scene.registers.geometry.segments.resolve address)) use]
  | .geometry (.popMatrices count) => [.pop count]
  | _ => []

private theorem matrices_advance (scene : Scene) (instruction : Instruction) :
    (scene.advance instruction).geometry.matrices =
      scene.registers.geometry.matrices.performAll (scene.matrixOps instruction) := by
  cases instruction with
  | geometry change =>
    cases change with
    | vertexColor index color | vertexTexel index word =>
      change (GeometryRegisters.modifyVertex _ index _).matrices = _
      unfold GeometryRegisters.modifyVertex
      split <;> rfl
    | _ => rfl
  | _ => rfl

end Scene

/-- The matrices came of a sequence of operations on the initial ones. -/
def Matrices.Reached (m : Matrices) : Prop := ∃ ops, m = ({} : Matrices).performAll ops

private theorem Matrices.Reached.performAll {m : Matrices} (h : m.Reached) (ops : List MatrixOp) :
    (m.performAll ops).Reached := by
  obtain ⟨before, rfl⟩ := h
  exact ⟨before ++ ops, (performAll_append _ before ops).symm⟩

variable {σ : Type} {o : Outlet σ}

private theorem Scene.reached_advance {scene : Scene}
    (h : scene.registers.geometry.matrices.Reached) (instruction : Instruction) :
    (scene.advance instruction).geometry.matrices.Reached := by
  rw [matrices_advance]
  exact h.performAll _

/-- Whatever a host asked for, and at whatever instruction of a run, the matrices of the console came
of a sequence of operations on the initial ones. -/
theorem Hosting.reached_walkFor_serveAll (settings : ListSettings) (o : Outlet σ) (sink : σ)
    (calls : List HostCall) (ram : Ram) (address : UInt32) (count : Nat) :
    let h := (start settings sink).serveAll o calls
    ((h.processor.machine ram address h.sink).walkFor o ram h.processor.settings
      count).1.registers.geometry.matrices.Reached :=
  Machine.walkFor_keepsRegisters (P := fun r => r.geometry.matrices.Reached)
    (fun scene _ h => scene.reached_advance h _) count
    ((start settings sink).serveAll_keepsRegisters (P := fun r => r.geometry.matrices.Reached)
      (fun scene _ h => scene.reached_advance h _) (fun _ h => h) calls ⟨[], rfl⟩)

end DisplayPipeline
