import DisplayPipeline.DisplayList.Outlet
import Mathlib.Tactic.Choose

/-!
# Dialogues with an outlet

What is submitted to an outlet is chosen by its answers alone. A dialogue is that choice: the first
command, and how to go on for each answer. It can be held with any outlet, so that what is known of
its commands holds for all of them, and two outlets that answer alike are led to the same result.
Something that is done through an outlet `Speaks` if it is a dialogue, the same one for all outlets.
-/

namespace DisplayPipeline

/-- Commands that are submitted one after the other, up to a result. -/
inductive Dialogue (α : Type) where
  | done (a : α)
  | ask (command : Command) (next : Except PoolError Unit → Dialogue α)

namespace Dialogue

variable {α β σ τ : Type}

def hold (o : Outlet σ) : Dialogue α → σ → α × σ
  | done a, sink => (a, sink)
  | ask command next, sink =>
    hold o (next (o.submit command sink).2) (o.submit command sink).1

private def bind : Dialogue α → (α → Dialogue β) → Dialogue β
  | done a, f => f a
  | ask command next, f => ask command fun answer => (next answer).bind f

private theorem hold_bind (o : Outlet σ) (t : Dialogue α) (f : α → Dialogue β) (sink : σ) :
    (t.bind f).hold o sink = (f (t.hold o sink).1).hold o (t.hold o sink).2 := by
  induction t generalizing sink with
  | done a => rfl
  | ask command next ih => exact ih _ _

/-- As long as refusals are among those allowed, commands and the result are as told. -/
def Meets (P : Command → Prop) (A : PoolError → Prop) (Q : α → Prop) : Dialogue α → Prop
  | done a => Q a
  | ask command next =>
    P command ∧ ∀ answer, (∀ cause, answer = .error cause → A cause) → Meets P A Q (next answer)

section Meets

variable {P : Command → Prop} {A : PoolError → Prop} {Q : α → Prop} {t : Dialogue α}

private theorem Meets.bind {R : β → Prop} {f : α → Dialogue β} (h : t.Meets P A Q)
    (hf : ∀ a, Q a → (f a).Meets P A R) : (t.bind f).Meets P A R := by
  induction t with
  | done a => exact hf a h
  | ask command next ih => exact ⟨h.1, fun answer hanswer => ih answer (h.2 answer hanswer)⟩

private theorem Meets.imp {R : α → Prop} (h : t.Meets P A Q) (hQR : ∀ a, Q a → R a) :
    t.Meets P A R := by
  induction t with
  | done a => exact hQR a h
  | ask command next ih => exact ⟨h.1, fun answer hanswer => ih answer (h.2 answer hanswer)⟩

theorem Meets.keeps {o : Outlet σ} {S : σ → Prop}
    (hsubmit : ∀ command sink, P command → S sink → S (o.submit command sink).1 ∧
      ∀ cause, (o.submit command sink).2 = .error cause → A cause)
    (h : t.Meets P A Q) {sink : σ} (hsink : S sink) :
    S (t.hold o sink).2 ∧ Q (t.hold o sink).1 := by
  induction t generalizing sink with
  | done a => exact ⟨hsink, h⟩
  | ask command next ih =>
    obtain ⟨hnext, hallowed⟩ := hsubmit command sink h.1 hsink
    exact ih _ (h.2 _ hallowed) hnext

/-- Two outlets that answer alike are led to the same result, unless `L` tells that something was
lost in the first one. -/
theorem Meets.hold_alike {o : Outlet σ} {u : Outlet τ} {R : σ → τ → Prop} {L : σ → Prop}
    (hlost : ∀ command sink, L sink → L (o.submit command sink).1)
    (hsubmit : ∀ command sink other, P command → R sink other →
      L (o.submit command sink).1 ∨
        (o.submit command sink).2 = (u.submit command other).2 ∧
          R (o.submit command sink).1 (u.submit command other).1)
    (h : t.Meets P (fun _ => True) Q) {sink : σ} {other : τ} (halike : R sink other) :
    L (t.hold o sink).2 ∨
      (t.hold o sink).1 = (t.hold u other).1 ∧ R (t.hold o sink).2 (t.hold u other).2 := by
  have hstays (t : Dialogue α) (sink : σ) (hsink : L sink) : L (t.hold o sink).2 := by
    induction t generalizing sink with
    | done a => exact hsink
    | ask command next ih => exact ih _ _ (hlost command sink hsink)
  induction t generalizing sink other with
  | done a => exact Or.inr ⟨rfl, halike⟩
  | ask command next ih =>
    rw [hold, hold]
    rcases hsubmit command sink other h.1 halike with hgone | ⟨hanswer, hnext⟩
    · exact Or.inl (hstays _ _ hgone)
    · rw [← hanswer]
      exact ih _ (h.2 _ fun _ _ => trivial) hnext

end Meets

end Dialogue

abbrev Exchange (α : Type) := (σ : Type) → Outlet σ → σ → α × σ

namespace Exchange

variable {α β : Type} {P : Command → Prop} {Q R : (PoolError → Prop) → α → Prop} {x : Exchange α}

/-- An exchange is a dialogue, the same one with every outlet. Whatever refusals are allowed, its
commands and its result are as told. -/
def Speaks (P : Command → Prop) (x : Exchange α) (Q : (PoolError → Prop) → α → Prop) : Prop :=
  ∃ t : Dialogue α, (∀ A, t.Meets P A (Q A)) ∧
    ∀ (σ : Type) (o : Outlet σ) (sink : σ), x σ o sink = t.hold o sink

theorem Speaks.imp (h : x.Speaks P Q) (hQR : ∀ A a, Q A a → R A a) : x.Speaks P R := by
  obtain ⟨t, ht, hx⟩ := h
  exact ⟨t, fun A => (ht A).imp (hQR A), hx⟩

theorem speaks_done {a : α} (h : ∀ A, Q A a) (hx : ∀ σ o sink, x σ o sink = (a, sink)) :
    x.Speaks P Q :=
  ⟨.done a, h, hx⟩

/-- What is done after a dialogue, depending on its result, is a longer dialogue. -/
theorem Speaks.bind {y : α → Exchange β} {z : Exchange β} {R : (PoolError → Prop) → β → Prop}
    (hx : x.Speaks P Q) (hy : ∀ a, (∃ A, Q A a) → (y a).Speaks P fun A b => Q A a → R A b)
    (hz : ∀ (σ : Type) (o : Outlet σ) (sink : σ),
      z σ o sink = y (x σ o sink).1 σ o (x σ o sink).2) :
    z.Speaks P R := by
  obtain ⟨t, ht, hx⟩ := hx
  have hend {σ : Type} (o : Outlet σ) (sink : σ) : ∃ A, Q A (t.hold o sink).1 :=
    ⟨_, ((ht fun _ => True).keeps (S := fun _ => True)
      (fun _ _ _ _ => ⟨trivial, fun _ _ => trivial⟩) trivial).2⟩
  -- For a result that cannot come up any dialogue will do.
  obtain ⟨other, -⟩ := hy _ (hend (⟨fun _ sink => (sink, .ok ())⟩ : Outlet Unit) ())
  have hrest (a : α) : ∃ u : Dialogue β, (∃ A, Q A a) →
      (∀ A, Q A a → u.Meets P A (R A)) ∧
        ∀ (σ : Type) (o : Outlet σ) (sink : σ), y a σ o sink = u.hold o sink := by
    by_cases ha : ∃ A, Q A a
    · obtain ⟨u, hu, hya⟩ := hy a ha
      exact ⟨u, fun _ => ⟨fun A hQ => (hu A).imp fun b hb => hb hQ, hya⟩⟩
    · exact ⟨other, fun h => absurd h ha⟩
  choose u hu using hrest
  refine ⟨t.bind u, fun A => (ht A).bind fun a ha => (hu a ⟨A, ha⟩).1 A ha, ?_⟩
  intro σ o sink
  rw [hz, hx, Dialogue.hold_bind]
  exact (hu _ (hend o sink)).2 σ o _

theorem Speaks.map {f : α → β} {z : Exchange β} {R : (PoolError → Prop) → β → Prop}
    (hx : x.Speaks P Q) (hf : ∀ A a, Q A a → R A (f a))
    (hz : ∀ (σ : Type) (o : Outlet σ) (sink : σ),
      z σ o sink = (f (x σ o sink).1, (x σ o sink).2)) :
    z.Speaks P R :=
  hx.bind (y := fun a _ _ sink => (f a, sink))
    (fun a _ => speaks_done (fun A ha => hf A a ha) fun _ _ _ => rfl) hz

end Exchange

end DisplayPipeline
