import DisplayPipeline.Proofs.Combiner.Histories

/-!
# What programs were made for

A program that is given out was made for features that the table knows to be there, or is the
pass-through program of its key. Gaining features leaves older programs in place; losing one has
them all made anew before the next is given out.
-/

namespace DisplayPipeline.Combiner

/-- The features that a table was told of last. -/
def ProgramCall.told (capabilities : Capabilities) : ProgramCall → Capabilities
  | setCapabilities more => more
  | _ => capabilities

namespace Programs

variable {p : Programs} {d : Device}

def Genuine (accuracy : Accuracy) (capabilities : Capabilities) (q : Program) : Prop :=
  if q.fallback then q.wgsl = Shader.passThrough q.key.stages.color q.key
  else MadeFor accuracy capabilities q

private theorem Genuine.mono {accuracy : Accuracy} {fewer more : Capabilities} {q : Program}
    (h : Genuine accuracy fewer q) (hmore : more.includes fewer = true) :
    Genuine accuracy more q := by
  unfold Genuine at h ⊢
  split
  · next hfallback => rwa [if_pos hfallback] at h
  · next hmain =>
    rw [if_neg hmain] at h
    obtain ⟨used, hused, hwgsl⟩ := h
    exact ⟨used, Capabilities.includes_trans hmore hused, hwgsl⟩

private theorem Made.genuine {key : Key} {after : Device} {q : Program} (h : p.Made key d after q) :
    Genuine p.accuracy p.capabilities q := by
  cases h with
  | main =>
    simp only [Genuine, mainProgram, Bool.false_eq_true, if_false]
    exact ⟨p.capabilities, Capabilities.includes_refl _, by dsimp only⟩
  | substitute | refused => simp only [Genuine, substituteProgram, mainProgram, if_true]

private theorem Genuine.derivatives {accuracy : Accuracy} {capabilities : Capabilities}
    {q : Program} (h : Genuine accuracy capabilities q) (huses : Shader.UsesDerivatives q.wgsl) :
    capabilities.includes .shaderDerivatives = true := by
  unfold Genuine at h
  split at h
  · rw [h] at huses
    exact absurd huses (Shader.not_usesDerivatives_passThrough _ _)
  · obtain ⟨used, hused, hwgsl⟩ := h
    rw [hwgsl, Shader.usesDerivatives_combine] at huses
    exact Capabilities.includes_trans hused huses.2

/-- Unless it is about to be cleared, a table holds genuine programs only. -/
def AllGenuine (p : Programs) : Prop :=
  p.obsolete = false → ∀ q ∈ p.table, Genuine p.accuracy p.capabilities q

private theorem AllGenuine.refresh (h : p.AllGenuine) {refreshed : Programs} {device : Device}
    (hrefresh : p.refresh d = (refreshed, device)) :
    (refreshed.accuracy = p.accuracy ∧ refreshed.capabilities = p.capabilities) ∧
      ∀ q ∈ refreshed.table, Genuine p.accuracy p.capabilities q := by
  rw [Programs.refresh] at hrefresh
  split at hrefresh
  · rw [clear_eq] at hrefresh
    cases hrefresh
    exact ⟨⟨rfl, rfl⟩, List.forall_mem_nil _⟩
  · next hcurrent =>
    cases hrefresh
    exact ⟨⟨rfl, rfl⟩, h (by simpa using hcurrent)⟩

end Programs

namespace ProgramStock

open Programs

variable {s : ProgramStock} {accuracy : Accuracy} {capabilities : Capabilities}

/-- A table that was told of features, and holds what it should. -/
structure Provided (accuracy : Accuracy) (capabilities : Capabilities) (s : ProgramStock) :
    Prop where
  accuracy : s.programs.accuracy = accuracy
  capabilities : s.programs.capabilities = capabilities
  genuine : s.programs.AllGenuine

private theorem Provided.build (h : s.Provided accuracy capabilities) (key : Key) :
    (s.build key).1.Provided accuracy capabilities ∧ (s.build key).2.key = key ∧
      Genuine accuracy capabilities (s.build key).2 := by
  obtain ⟨haccuracy, hcapabilities, hgenuine⟩ := h
  obtain ⟨refreshed, device, hrefresh, ⟨q, hfound, hbuild⟩ | ⟨after, q, -, hmade, hbuild⟩⟩ :=
    s.build_cases key
  all_goals
    obtain ⟨⟨hsame, hknown⟩, htable⟩ := hgenuine.refresh hrefresh
    rw [haccuracy, hcapabilities] at htable
    rw [haccuracy] at hsame
    rw [hcapabilities] at hknown
    rw [hbuild]
  · obtain ⟨hq, hkey⟩ := find?_eq_some hfound
    exact ⟨⟨hsame, hknown, fun _ => hsame ▸ hknown ▸ htable⟩, hkey, htable q hq⟩
  · have hnew : Genuine accuracy capabilities q := hsame ▸ hknown ▸ hmade.genuine
    refine ⟨⟨hsame, hknown, fun _ => ?_⟩, hmade.fields.1, hnew⟩
    show ∀ r ∈ (refreshed.add q).table, Genuine refreshed.accuracy refreshed.capabilities r
    rw [hsame, hknown]
    exact forall_mem_add htable hnew

/-- Where no feature was lost, programs remain genuine; otherwise they are made anew. -/
theorem Provided.serve (h : s.Provided accuracy capabilities) (call : ProgramCall) :
    (s.serve call).Provided accuracy (call.told capabilities) := by
  cases call with
  | build key => exact (h.build key).1
  | refuse programs passThroughs => exact ⟨h.accuracy, h.capabilities, h.genuine⟩
  | markObsolete => exact ⟨h.accuracy, h.capabilities, fun hcurrent => Bool.noConfusion hcurrent⟩
  | clear =>
    rw [ProgramStock.serve, clear_eq]
    exact ⟨h.accuracy, h.capabilities, fun _ => List.forall_mem_nil _⟩
  | setCapabilities more =>
    refine ⟨h.accuracy, rfl, fun hcurrent q hq => ?_⟩
    obtain ⟨hold, hkept⟩ := Bool.or_eq_false_iff.mp hcurrent
    have hmore : more.includes s.programs.capabilities = true := by simpa using hkept
    exact (h.genuine hold q hq).mono hmore

private theorem Provided.serveAll (h : s.Provided accuracy capabilities)
    (calls : List ProgramCall) :
    (s.serveAll calls).Provided accuracy (calls.foldl ProgramCall.told capabilities) := by
  induction calls generalizing s capabilities with
  | nil => exact h
  | cons call calls ih => exact ih (h.serve call)

/-- Whatever happened before, a main program that is given out has the text of its key for the
table's accuracy and some of the features that the table was told of last, and a substitute has the
pass-through text. Neither takes derivatives that the device was not said to have. -/
theorem serveAll_givesGenuine (accuracy : Accuracy) (capabilities : Capabilities)
    (device : DeviceSpec) (calls : List ProgramCall) (key : Key) :
    let s := (ofSpec accuracy capabilities device).serveAll calls
    let known := calls.foldl ProgramCall.told capabilities
    let q := (s.build key).2
    s.programs.capabilities = known ∧ q.key = key ∧
      (q.fallback = false → ∃ used, known.includes used = true ∧
        q.wgsl = Shader.combine key.stages key accuracy used) ∧
      (q.fallback = true → q.wgsl = Shader.passThrough key.stages.color key) ∧
      (Shader.UsesDerivatives q.wgsl → known.includes .shaderDerivatives = true) := by
  intro s known q
  have hstart : (ofSpec accuracy capabilities device).Provided accuracy capabilities :=
    ⟨rfl, rfl, fun _ => List.forall_mem_nil _⟩
  have hs : s.Provided accuracy known := hstart.serveAll calls
  obtain ⟨-, hkey, hgenuine⟩ := hs.build key
  refine ⟨hs.capabilities, hkey, fun hmain => ?_, fun hfallback => ?_, hgenuine.derivatives⟩
  · rw [Genuine, hmain, MadeFor, hkey] at hgenuine
    simpa using hgenuine
  · rw [Genuine, hfallback, hkey] at hgenuine
    simpa using hgenuine

end ProgramStock

end DisplayPipeline.Combiner
