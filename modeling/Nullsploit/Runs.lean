/-
Nullsploit/Runs.lean

Runs of a machine given by a step function `σ → α → σ × ω`: a state, an input
chosen by the environment, and an output.  `exec` feeds a list of inputs;
`Along` says a property holds at every step of the run, of the state the step
starts in and the input it gets, `Once` that it holds at one of them.

The rules are the usual ones: a relation kept by each pair of steps relates
whole runs and their outputs (`exec_simulates`), what every step keeps holds at
the end (`Along.invariant`, and `Along.history` where it speaks of the inputs so
far), and along a run one step property may be traded for another under an
invariant (`Along.mono`, `along_congr`).
-/
import Mathlib.Data.List.Induction
import Mathlib.Tactic.Common

namespace Runs

variable {σ τ α ω : Type*}

/-- Feed the inputs in turn, collecting the outputs. -/
def exec (step : σ → α → σ × ω) : σ → List α → σ × List ω
  | s, [] => (s, [])
  | s, a :: as => ((exec step (step s a).1 as).1, (step s a).2 :: (exec step (step s a).1 as).2)

/-- `Q` holds at every step of the run. -/
def Along (step : σ → α → σ × ω) (Q : σ → α → Prop) : σ → List α → Prop
  | _, [] => True
  | s, a :: as => Q s a ∧ Along step Q (step s a).1 as

/-- `Q` holds at some step of the run. -/
def Once (step : σ → α → σ × ω) (Q : σ → α → Prop) : σ → List α → Prop
  | _, [] => False
  | s, a :: as => Q s a ∨ Once step Q (step s a).1 as

variable {step : σ → α → σ × ω} {step' : τ → α → τ × ω}

@[simp] theorem exec_nil (s : σ) : exec step s [] = (s, []) := rfl

theorem exec_append (s : σ) (as bs : List α) :
    exec step s (as ++ bs)
      = ((exec step (exec step s as).1 bs).1,
          (exec step s as).2 ++ (exec step (exec step s as).1 bs).2) := by
  induction as generalizing s with
  | nil => simp
  | cons a as ih => simp [exec, ih]

theorem along_append {Q : σ → α → Prop} {s : σ} {as bs : List α} :
    Along step Q s (as ++ bs) ↔ Along step Q s as ∧ Along step Q (exec step s as).1 bs := by
  induction as generalizing s with
  | nil => exact (iff_of_eq (true_and _)).symm
  | cons a as ih => exact (and_congr_right fun _ => ih).trans and_assoc.symm

theorem exec_snoc (s : σ) (as : List α) (a : α) :
    (exec step s (as ++ [a])).1 = (step (exec step s as).1 a).1 := by
  rw [exec_append]
  rfl

theorem once_append {Q : σ → α → Prop} {s : σ} {as bs : List α} :
    Once step Q s (as ++ bs) ↔ Once step Q s as ∨ Once step Q (exec step s as).1 bs := by
  induction as generalizing s with
  | nil => exact (iff_of_eq (false_or _)).symm
  | cons a as ih => exact (or_congr_right ih).trans or_assoc.symm

theorem once_snoc {Q : σ → α → Prop} {s : σ} {as : List α} {a : α} :
    Once step Q s (as ++ [a]) ↔ Once step Q s as ∨ Q (exec step s as).1 a :=
  once_append.trans (or_congr_right (iff_of_eq (or_false _)))

/-- What is true of the output at some step is true of one of the outputs. -/
theorem Once.exists_output {P : ω → Prop} :
    ∀ {s : σ} {as : List α}, Once step (fun s a => P (step s a).2) s as →
      ∃ o ∈ (exec step s as).2, P o := by
  intro s as
  induction as generalizing s with
  | nil => exact False.elim
  | cons a as ih =>
      rintro (h | h)
      · exact ⟨_, List.mem_cons_self, h⟩
      · obtain ⟨o, ho, hP⟩ := ih h
        exact ⟨o, List.mem_cons_of_mem _ ho, hP⟩

theorem Once.imp {Q Q' : σ → α → Prop} (hQ : ∀ s a, Q s a → Q' s a) :
    ∀ {s : σ} {as : List α}, Once step Q s as → Once step Q' s as := by
  intro s as
  induction as generalizing s with
  | nil => exact id
  | cons a as ih => exact Or.imp (hQ s a) ih

/-- A property of the inputs alone. -/
theorem along_of_forall {P : α → Prop} {s : σ} {as : List α} (h : ∀ a ∈ as, P a) :
    Along step (fun _ a => P a) s as := by
  induction as generalizing s with
  | nil => trivial
  | cons a as ih =>
      exact ⟨h a List.mem_cons_self, ih fun b hb => h b (List.mem_cons_of_mem _ hb)⟩

/-- Two machines whose steps keep a relation and agree on outputs have runs
that do. -/
theorem exec_simulates (P : α → Prop) (Rel : σ → τ → Prop)
    (hstep : ∀ s r a, P a → Rel s r → Rel (step s a).1 (step' r a).1 ∧ (step s a).2 = (step' r a).2) :
    ∀ {s : σ} {r : τ} {as : List α}, (∀ a ∈ as, P a) → Rel s r →
      Rel (exec step s as).1 (exec step' r as).1 ∧ (exec step s as).2 = (exec step' r as).2 := by
  intro s r as
  induction as generalizing s r with
  | nil => exact fun _ h => ⟨h, rfl⟩
  | cons a as ih =>
      intro hP hs
      obtain ⟨hrel, hout⟩ := hstep s r a (hP a List.mem_cons_self) hs
      obtain ⟨hrel', hout'⟩ := ih (fun b hb => hP b (List.mem_cons_of_mem _ hb)) hrel
      exact ⟨hrel', by simp [exec, hout, hout']⟩

/-- Along a run, trade a step property for another one; the invariant may
use the property it trades. -/
theorem Along.mono (Inv : σ → Prop) {Q Q' : σ → α → Prop}
    (hstep : ∀ s a, Inv s → Q s a → Q' s a ∧ Inv (step s a).1) :
    ∀ {s : σ} {as : List α}, Inv s → Along step Q s as → Along step Q' s as := by
  intro s as
  induction as generalizing s with
  | nil => exact fun _ _ => trivial
  | cons a as ih =>
      intro hs h
      obtain ⟨hQ, hInv⟩ := hstep s a hs h.1
      exact ⟨hQ, ih hInv h.2⟩

/-- An invariant of the steps with a property holds after a run along which all
steps have it. -/
theorem Along.invariant (Inv : σ → Prop) {Q : σ → α → Prop}
    (hstep : ∀ s a, Inv s → Q s a → Inv (step s a).1) :
    ∀ {s : σ} {as : List α}, Inv s → Along step Q s as → Inv (exec step s as).1 := by
  intro s as
  induction as generalizing s with
  | nil => exact fun hs _ => hs
  | cons a as ih => exact fun hs h => ih (hstep s a hs h.1) h.2

/-- An invariant that also speaks of the inputs so far. -/
theorem Along.history (Inv : List α → σ → Prop) {Q : σ → α → Prop} {s₀ : σ}
    (hstart : Inv [] s₀)
    (hstep : ∀ as a, Inv as (exec step s₀ as).1 → Q (exec step s₀ as).1 a →
      Inv (as ++ [a]) (step (exec step s₀ as).1 a).1)
    (as : List α) : Along step Q s₀ as → Inv as (exec step s₀ as).1 := by
  induction as using List.reverseRecOn with
  | nil => exact fun _ => hstart
  | append_singleton as a ih =>
      intro h
      obtain ⟨has, ha, -⟩ := along_append.mp h
      rw [exec_snoc]
      exact hstep as a (ih has) ha

/-- Along a run, two step properties that agree wherever the invariant holds
are the same. -/
theorem along_congr (P : α → Prop) (Inv : σ → Prop) {Q Q' : σ → α → Prop}
    (hinv : ∀ s a, P a → Inv s → Inv (step s a).1)
    (hiff : ∀ s a, P a → Inv s → (Q s a ↔ Q' s a)) :
    ∀ {s : σ} {as : List α}, (∀ a ∈ as, P a) → Inv s →
      (Along step Q s as ↔ Along step Q' s as) := by
  intro s as
  induction as generalizing s with
  | nil => exact fun _ _ => Iff.rfl
  | cons a as ih =>
      intro hP hs
      have ha := hP a List.mem_cons_self
      exact and_congr (hiff s a ha hs)
        (ih (fun b hb => hP b (List.mem_cons_of_mem _ hb)) (hinv s a ha hs))

end Runs
