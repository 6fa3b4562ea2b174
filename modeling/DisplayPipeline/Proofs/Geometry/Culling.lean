import DisplayPipeline.Proofs.DisplayList.Course
import Mathlib.Data.List.Basic
import Mathlib.Data.Nat.Basic
import Mathlib.Order.Basic

/-!
# Culled lists lose no triangle

A list is left if all vertices of a range lie beyond one side of the clip volume. A triangle is dropped
if its three corners do, among other tests. The first test is the stricter one whatever the coordinates
are, so that no triangle with its corners in the range would have been drawn by what is left out of the
list, for as long as no vertex of the range is loaded anew.
-/

namespace DisplayPipeline

inductive Side where
  | left
  | right
  | bottom
  | top
  | behind
deriving DecidableEq, Repr

namespace Outcode

def has (c : Outcode) : Side → Bool
  | .left => c.left
  | .right => c.right
  | .bottom => c.bottom
  | .top => c.top
  | .behind => c.behind

@[simp] theorem has_all (side : Side) : all.has side = true := by cases side <;> rfl

@[simp] theorem has_inter (a b : Outcode) (side : Side) :
    (a.inter b).has side = (a.has side && b.has side) := by
  cases side <;> rfl

theorem all_inter (c : Outcode) : all.inter c = c := rfl

private theorem isEmpty_eq_false_iff {c : Outcode} :
    c.isEmpty = false ↔ ∃ side, c.has side = true := by
  simp only [isEmpty, Bool.not_eq_false', Bool.or_eq_true]
  constructor
  · rintro ((((h | h) | h) | h) | h)
    · exact ⟨.left, h⟩
    · exact ⟨.right, h⟩
    · exact ⟨.bottom, h⟩
    · exact ⟨.top, h⟩
    · exact ⟨.behind, h⟩
  · rintro ⟨side, h⟩
    cases side <;> simp only [has] at h <;> simp [h]

private theorem has_foldl_inter (points : List Vec4) (shared : Outcode) (side : Side) :
    (points.foldl (fun shared p => shared.inter (.ofPoint p)) shared).has side = true ↔
      shared.has side = true ∧ ∀ p ∈ points, (ofPoint p).has side = true := by
  induction points generalizing shared with
  | nil => simp
  | cons p points ih =>
    rw [List.foldl_cons, ih, has_inter, Bool.and_eq_true, List.forall_mem_cons, and_assoc]

end Outcode

/-! ## Lists of points -/

section Points

variable {points fewer : List Vec4} {t : Triangle}

private theorem triviallyRejected_iff :
    triviallyRejected points = true ↔
      ∃ side, ∀ p ∈ points, (Outcode.ofPoint p).has side = true := by
  rw [triviallyRejected, Bool.not_eq_true', Outcode.isEmpty_eq_false_iff]
  simp only [Outcode.has_foldl_inter, Outcode.has_all, true_and]

private theorem triviallyRejected_of_subset (h : triviallyRejected points = true)
    (hfewer : fewer ⊆ points) :
    triviallyRejected fewer = true := by
  obtain ⟨side, hside⟩ := triviallyRejected_iff.mp h
  exact triviallyRejected_iff.mpr ⟨side, fun p hp => hside p (hfewer hp)⟩

/-- The triangle's own test of the sides is that of its three corners. -/
theorem Triangle.isEmpty_shared (t : Triangle) :
    (((Outcode.ofPoint t.a).inter (.ofPoint t.b)).inter (.ofPoint t.c)).isEmpty =
      !triviallyRejected t.toList := by
  simp only [triviallyRejected, toList, List.foldl_cons, List.foldl_nil, Outcode.all_inter,
    Bool.not_not]

private theorem Triangle.isVisible_eq_false (h : triviallyRejected t.toList = true) :
    t.isVisible = false := by
  rw [isVisible]
  simp only [isEmpty_shared, h, Bool.not_true, Bool.not_false, if_true]

private theorem Triangle.isVisible_eq_true (h : triviallyRejected t.toList = false)
    (hcorner : ∃ p ∈ t.toList,
      (Outcode.ofPoint p).behind = true ∨ (Outcode.ofPoint p).isEmpty = true) :
    t.isVisible = true := by
  obtain ⟨p, hp, hkept⟩ := hcorner
  have hcode : Outcode.ofPoint p ∈ t.toList.map Outcode.ofPoint := List.mem_map_of_mem hp
  rw [isVisible]
  simp only [isEmpty_shared, h, Bool.not_false, Bool.not_true, Bool.false_eq_true, if_false]
  split
  case isTrue => rfl
  case isFalse hbehind =>
    obtain hp | hp := hkept
    · exact absurd (List.any_eq_true.mpr ⟨_, hcode, hp⟩) hbehind
    · rw [if_pos (List.any_eq_true.mpr ⟨_, hcode, hp⟩)]

end Points

/-! ## The vertex buffer -/

def Corners.toList (corners : Corners) : List Nat := [corners.a, corners.b, corners.c]

def Instruction.LoadsVertex (index : Nat) : Instruction → Prop
  | .geometry (.loadVertices first count _) => first ≤ index ∧ index < first + count
  | _ => False

namespace GeometryRegisters

variable {g : GeometryRegisters} {ram : Ram} {setup : VertexSetup} {i : Nat}

/-- Where a loaded vertex is in clip coordinates. -/
def clipAt? (g : GeometryRegisters) (i : Nat) : Option Vec4 := g.vertices[i]?.map (·.clip)

private theorem clipAt?_modifyVertex (index : Nat) {f : LoadedVertex → LoadedVertex}
    (hf : ∀ v, (f v).clip = v.clip) : (g.modifyVertex index f).clipAt? i = g.clipAt? i := by
  unfold modifyVertex
  cases hvertex : g.vertices[index]? with
  | none => rfl
  | some v =>
    simp only [clipAt?, Vector.getElem?_setIfInBounds]
    by_cases hsame : index = i
    · subst hsame
      obtain ⟨hindex, -⟩ := Vector.getElem?_eq_some_iff.mp hvertex
      rw [if_pos rfl, if_pos hindex, hvertex, Option.map_some, Option.map_some, hf]
    · rw [if_neg hsame]

private theorem getElem?_foldl_setIfInBounds (value : Nat → LoadedVertex) (first : Nat)
    (vertices : Vector LoadedVertex 32) (count : Nat) (h : i < first ∨ first + count ≤ i) :
    ((List.range count).foldl (fun vertices j => vertices.setIfInBounds (first + j) (value j))
      vertices)[i]? = vertices[i]? := by
  induction count with
  | zero => rfl
  | succ count ih =>
    rw [List.range_succ, List.foldl_append, List.foldl_cons, List.foldl_nil,
      Vector.getElem?_setIfInBounds_ne (by omega)]
    exact ih (by omega)

private theorem clipAt?_loadVertices {first count : Nat} (h : ¬ (first ≤ i ∧ i < first + count))
    (address : UInt32) :
    (g.loadVertices ram setup first count address).clipAt? i = g.clipAt? i := by
  simp only [clipAt?, loadVertices]
  rw [getElem?_foldl_setIfInBounds _ _ _ _ (by omega)]

private theorem clipAt?_apply {change : GeometryChange}
    (h : ¬ (Instruction.geometry change).LoadsVertex i) :
    (g.apply ram setup change).clipAt? i = g.clipAt? i := by
  cases change with
  | loadVertices first count address => exact clipAt?_loadVertices h address
  | vertexColor index color => exact clipAt?_modifyVertex index fun _ => rfl
  | vertexTexel index word => exact clipAt?_modifyVertex index fun _ => rfl
  | _ => rfl

private theorem mem_clips_iff {first last : Nat} {p : Vec4} :
    p ∈ ((g.vertices.toList.take (last + 1)).drop first).map (·.clip) ↔
      ∃ i, first ≤ i ∧ i ≤ last ∧ g.clipAt? i = some p := by
  rw [List.mem_map]
  simp only [clipAt?, Option.map_eq_some_iff]
  constructor
  · rintro ⟨v, hv, rfl⟩
    obtain ⟨n, hn⟩ := List.mem_iff_getElem?.mp hv
    rw [List.getElem?_drop, List.getElem?_take, Vector.getElem?_toList] at hn
    obtain ⟨hlast, hn⟩ := Option.ite_none_right_eq_some.mp hn
    exact ⟨first + n, Nat.le_add_right _ _, Nat.le_of_lt_succ hlast, v, hn, rfl⟩
  · rintro ⟨i, hfirst, hlast, v, hv, rfl⟩
    refine ⟨v, List.mem_iff_getElem?.mpr ⟨i - first, ?_⟩, rfl⟩
    rw [List.getElem?_drop, Nat.add_sub_cancel' hfirst,
      List.getElem?_take_of_lt (Nat.lt_succ_of_le hlast), Vector.getElem?_toList]
    exact hv

end GeometryRegisters

namespace Scene

variable {scene later : Scene} {first last : Nat}

def SamePlaces (scene later : Scene) (first last : Nat) : Prop :=
  ∀ i, first ≤ i → i ≤ last →
    later.registers.geometry.clipAt? i = scene.registers.geometry.clipAt? i

private theorem culls_iff :
    scene.culls first last = true ↔
      first ≤ min last 31 ∧ ∃ side, ∀ i, first ≤ i → i ≤ last →
        ∀ p, scene.registers.geometry.clipAt? i = some p → (Outcode.ofPoint p).has side = true := by
  have hlength : scene.registers.geometry.vertices.toList.length = 32 := Vector.length_toList
  simp only [culls, hlength, Bool.and_eq_true, decide_eq_true_eq, triviallyRejected_iff,
    GeometryRegisters.mem_clips_iff]
  refine and_congr_right fun _ => exists_congr fun side => ?_
  constructor
  · intro h i hfirst hlast p hp
    have hbuffer : i < 32 := by
      obtain ⟨v, hv, -⟩ := Option.map_eq_some_iff.mp hp
      exact (Vector.getElem?_eq_some_iff.mp hv).1
    exact h p ⟨i, hfirst, Nat.le_min.mpr ⟨hlast, Nat.le_of_lt_succ hbuffer⟩, hp⟩
  · rintro h p ⟨i, hfirst, hlast, hp⟩
    exact h i hfirst (hlast.trans (Nat.min_le_left _ _)) p hp

private theorem move_cull_eq_leave_iff {after : UInt32} :
    scene.move after (.flow (.cull first last)) = .leave ↔ scene.culls first last = true := by
  change (if scene.culls first last = true then Move.leave else .goTo after) = .leave ↔ _
  split
  case isTrue h => exact iff_of_true rfl h
  case isFalse h => exact iff_of_false nofun h

/-- A triangle is dropped where a range was culled that its corners are in and that stays in place. -/
theorem triangleRequest_of_culls (h : scene.culls first last = true)
    (hsame : scene.SamePlaces later first last) {corners : Corners}
    (hcorners : ∀ i ∈ corners.toList, first ≤ i ∧ i ≤ last) :
    later.triangleRequest corners = .drop := by
  obtain ⟨-, side, hside⟩ := culls_iff.mp h
  have hbeyond {i : Nat} (hi : i ∈ corners.toList) {v : LoadedVertex}
      (hv : later.registers.geometry.vertices[i]? = some v) :
      (Outcode.ofPoint v.clip).has side = true := by
    obtain ⟨hfirst, hlast⟩ := hcorners i hi
    refine hside i hfirst hlast v.clip ?_
    rw [← hsame i hfirst hlast, GeometryRegisters.clipAt?, hv, Option.map_some]
  cases hfound : later.corners? corners with
  | none => simp only [triangleRequest, hfound]
  | some found =>
    obtain ⟨a, ha, hfound'⟩ := Option.bind_eq_some_iff.mp hfound
    obtain ⟨b, hb, hfound'⟩ := Option.bind_eq_some_iff.mp hfound'
    obtain ⟨c, hc, hfound'⟩ := Option.bind_eq_some_iff.mp hfound'
    cases hfound'
    have hrejected : triviallyRejected (⟨a.clip, b.clip, c.clip⟩ : Triangle).toList = true := by
      refine triviallyRejected_iff.mpr ⟨side, List.forall_mem_cons.mpr ⟨?_,
        List.forall_mem_cons.mpr ⟨?_, List.forall_mem_singleton.mpr ?_⟩⟩⟩
      · exact hbeyond (i := corners.a) (by simp [Corners.toList]) ha
      · exact hbeyond (i := corners.b) (by simp [Corners.toList]) hb
      · exact hbeyond (i := corners.c) (by simp [Corners.toList]) hc
    -- The sides come first among the triangle's own tests, so the others do not matter.
    have hinvisible := Triangle.isVisible_eq_false hrejected
    simp only [triangleRequest, hfound, hinvisible, Bool.not_false, Bool.true_or, if_true]

private theorem clipAt?_advance {instruction : Instruction} {i : Nat}
    (h : ¬ instruction.LoadsVertex i) :
    (scene.advance instruction).geometry.clipAt? i = scene.registers.geometry.clipAt? i := by
  cases instruction with
  | geometry change => exact GeometryRegisters.clipAt?_apply h
  | _ => rfl

end Scene

namespace Machine

variable {σ : Type} {o : Outlet σ} {ram : Ram} {settings : ListSettings} {m n : Machine σ} {i : Nat}

private theorem clipAt?_step (h : ¬ (m.visit.instruction ram).LoadsVertex i) :
    (m.step o ram settings).after.registers.geometry.clipAt? i =
      m.registers.geometry.clipAt? i := by
  obtain hsame | hadvanced := m.registers_step o ram settings
  · rw [hsame]
  · rw [hadvanced]
    exact Scene.clipAt?_advance h

/-- As long as a run loads no vertex anew at an index, the one there stays in its place. -/
theorem clipAt?_course {budget : Nat} {earlier later : List (Machine σ)}
    (hcourse : m.course o ram settings budget = earlier ++ n :: later)
    (h : ∀ before ∈ earlier, ¬ (before.visit.instruction ram).LoadsVertex i) :
    n.registers.geometry.clipAt? i = m.registers.geometry.clipAt? i := by
  induction earlier generalizing m budget with
  | nil =>
    cases budget with
    | zero => cases hcourse
    | succ budget =>
      rw [course, List.nil_append, List.cons.injEq] at hcourse
      rw [hcourse.1]
  | cons before earlier ih =>
    cases budget with
    | zero => cases hcourse
    | succ budget =>
      rw [course, List.cons_append, List.cons.injEq] at hcourse
      obtain ⟨rfl, hcourse⟩ := hcourse
      obtain ⟨hfirst, hrest⟩ := List.forall_mem_cons.mp h
      have hstep : (m.step o ram settings).after.registers.geometry.clipAt? i =
          m.registers.geometry.clipAt? i := clipAt?_step hfirst
      cases hnext : m.step o ram settings with
      | next next =>
        rw [hnext] at hcourse hstep
        exact (ih hcourse hrest).trans hstep
      | stop last outcome =>
        rw [hnext] at hcourse
        simp at hcourse

/-- Points are rejected if they lie beyond one side, and so are then any of them, and a triangle with its
corners among them is not visible, whatever the coordinates; one that is not rejected is visible for a
corner behind the eye or inside. So where an instruction leaves the list because a range of vertices is
rejected, no triangle is lost: had the run gone on with the instruction after it, any triangle with its
corners in the range would have been dropped for as long as none of these vertices was loaded anew. -/
theorem cull_losesNoTriangle :
    (∀ points : List Vec4,
      (triviallyRejected points = true ↔
        ∃ side, ∀ p ∈ points, (Outcode.ofPoint p).has side = true) ∧
      (triviallyRejected points = true →
        (∀ fewer : List Vec4, fewer ⊆ points → triviallyRejected fewer = true) ∧
          ∀ t : Triangle, t.toList ⊆ points → t.isVisible = false)) ∧
    (∀ t : Triangle, triviallyRejected t.toList = false →
      (∃ p ∈ t.toList, (Outcode.ofPoint p).behind = true ∨ (Outcode.ofPoint p).isEmpty = true) →
      t.isVisible = true) ∧
    ∀ {σ : Type} (o : Outlet σ) (ram : Ram) (settings : ListSettings) (m : Machine σ)
      (first last : Nat),
      let after := (Instruction.fetch ram m.walk.address).2
      m.visit.instruction ram = .flow (.cull first last) →
      (m.visit.scene ram settings).move after (m.visit.instruction ram) = .leave →
      ∀ (budget : Nat) (earlier : List (Machine σ)) (n : Machine σ) (later : List (Machine σ)),
        ({ m with walk.address := after } : Machine σ).course o ram settings budget =
          earlier ++ n :: later →
        (∀ before ∈ earlier, ∀ i, first ≤ i → i ≤ last →
          ¬ (before.visit.instruction ram).LoadsVertex i) →
        ∀ corners : Corners, (∀ i ∈ corners.toList, first ≤ i ∧ i ≤ last) →
          (n.visit.scene ram settings).triangleRequest corners = .drop := by
  refine ⟨fun points => ⟨triviallyRejected_iff, fun h =>
    ⟨fun fewer hfewer => triviallyRejected_of_subset h hfewer,
      fun t ht => Triangle.isVisible_eq_false (triviallyRejected_of_subset h ht)⟩⟩,
    fun t h hcorner => Triangle.isVisible_eq_true h hcorner, ?_⟩
  intro σ o ram settings m first last after hcull hleaves budget earlier n later hcourse hkept corners
    hcorners
  rw [hcull, Scene.move_cull_eq_leave_iff] at hleaves
  refine Scene.triangleRequest_of_culls hleaves (fun i hfirst hlast => ?_) hcorners
  -- Where the run goes on is of no account to the vertices that are loaded.
  exact clipAt?_course (m := { m with walk.address := after }) hcourse
    fun before hbefore => hkept before hbefore i hfirst hlast

/-- A list that loads three vertices, leaves if they are beyond one side, which they are, and would then
color one of them, load a fourth one and draw the triangle of the three. -/
def beyondRightRam : Ram where
  bytes := ⟨#[
    0x01, 0x00, 0x30, 0x06, 0x00, 0x00, 0x00, 0x40, 0x03, 0x00, 0x00, 0x00, 0x00, 0x00, 0x00, 0x04,
    0x02, 0x10, 0x00, 0x02, 0xFF, 0x00, 0x00, 0xFF, 0x01, 0x00, 0x10, 0x08, 0x00, 0x00, 0x00, 0x70,
    0x05, 0x00, 0x02, 0x04, 0x00, 0x00, 0x00, 0x00, 0xDF, 0x00, 0x00, 0x00, 0x00, 0x00, 0x00, 0x00,
    0x00, 0x00, 0x00, 0x00, 0x00, 0x00, 0x00, 0x00, 0x00, 0x00, 0x00, 0x00, 0x00, 0x00, 0x00, 0x00,
    0x00, 0x02, 0x00, 0x00, 0x00, 0x00, 0x00, 0x00, 0x00, 0x00, 0x00, 0x00, 0x00, 0x00, 0x00, 0x00,
    0x00, 0x05, 0xFF, 0xFD, 0x00, 0x00, 0x00, 0x00, 0x00, 0x00, 0x00, 0x00, 0x00, 0x00, 0x00, 0x00,
    0x00, 0x09, 0x00, 0x07, 0x00, 0x00, 0x00, 0x00, 0x00, 0x00, 0x00, 0x00, 0x00, 0x00, 0x00, 0x00,
    0x00, 0x00, 0x00, 0x00, 0x00, 0x00, 0x00, 0x00, 0x00, 0x00, 0x00, 0x00, 0x00, 0x00, 0x00, 0x00]⟩
  logSize := 4 + 3
  size_eq := by decide +kernel
  logSize_le := by decide

def beyondRight : Machine Recording :=
  (((ListProcessor.ofSettings {}).machine beyondRightRam 0 ({} : Recording)).walkFor .recording
    beyondRightRam {} 1).1

theorem cull_losesNoTriangle_beyondRight :
    (beyondRight.visit.scene beyondRightRam {}).move 16 (beyondRight.visit.instruction beyondRightRam) =
        .leave ∧
      ∃ n ∈ ({ beyondRight with walk.address := 16 } : Machine Recording).course .recording
          beyondRightRam {} 3,
        n.visit.instruction beyondRightRam = .triangle ⟨0, 1, 2⟩ ∧
        (n.visit.scene beyondRightRam {}).triangleRequest ⟨0, 1, 2⟩ = .drop ∧
        triviallyRejected [⟨2, 0, 0, 1⟩, ⟨9, 7, 0, 1⟩] = true ∧
        Triangle.isVisible ⟨⟨2, 0, 0, 1⟩, ⟨5, -3, 0, 1⟩, ⟨9, 7, 0, 1⟩⟩ = false ∧
        Triangle.isVisible ⟨⟨2, 0, 0, 1⟩, ⟨0, 0, 0, -1⟩, ⟨0, 0, 0, 1⟩⟩ = true := by
  have hcull : beyondRight.visit.instruction beyondRightRam = .flow (.cull 0 2) := by decide +kernel
  have hleaves : (beyondRight.visit.scene beyondRightRam {}).move 16
      (beyondRight.visit.instruction beyondRightRam) = .leave := by decide +kernel
  have hrejected : triviallyRejected [⟨2, 0, 0, 1⟩, ⟨5, -3, 0, 1⟩, ⟨9, 7, 0, 1⟩] = true := by
    decide +kernel
  let onward : Machine Recording := { beyondRight with walk.address := 16 }
  let machines := onward.course .recording beyondRightRam {} 3
  have hinstructions : machines.map (·.visit.instruction beyondRightRam) =
      [.geometry (.vertexColor 1 (.ofWord 0xFF0000FF)), .geometry (.loadVertices 3 1 0x70),
        .triangle ⟨0, 1, 2⟩] := by decide +kernel
  obtain ⟨coloring, rest, hmachines, hcoloring, hrest⟩ := List.map_eq_cons_iff.mp hinstructions
  obtain ⟨loading, rest, rfl, hloading, hrest⟩ := List.map_eq_cons_iff.mp hrest
  obtain ⟨drawing, rest, rfl, hdrawing, -⟩ := List.map_eq_cons_iff.mp hrest
  have hafter : (Instruction.fetch beyondRightRam beyondRight.walk.address).2 = 16 := by
    decide +kernel
  obtain ⟨hpoints, hvisible, hmachine⟩ := cull_losesNoTriangle
  obtain ⟨hfewer, htriangle⟩ := (hpoints _).2 hrejected
  have hdropped := hmachine .recording beyondRightRam {} beyondRight 0 2 hcull
  rw [hafter] at hdropped
  have hkept : ∀ before ∈ [coloring, loading], ∀ i, 0 ≤ i → i ≤ 2 →
      ¬ (before.visit.instruction beyondRightRam).LoadsVertex i := by
    rintro before hbefore i - hlast
    obtain rfl | rfl := List.mem_pair.mp hbefore
    · rw [hcoloring]
      exact id
    · rw [hloading]
      rintro ⟨hfirst, -⟩
      omega
  refine ⟨hleaves, drawing, ?_, hdrawing, ?_, hfewer _ (by simp), htriangle _ ?_,
    hvisible _ (by decide +kernel) ⟨⟨0, 0, 0, -1⟩, by simp [Triangle.toList], by decide +kernel⟩⟩
  · change drawing ∈ machines
    rw [hmachines]
    simp
  · exact hdropped hleaves 3 [coloring, loading] drawing rest hmachines hkept ⟨0, 1, 2⟩ (by decide)
  · exact List.Subset.refl _

end Machine

end DisplayPipeline
