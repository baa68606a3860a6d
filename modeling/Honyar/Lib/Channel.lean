import Mathlib.Data.List.Basic
import Mathlib.Tactic.Common

/-!
# Messages in flight

A channel that keeps the order of its messages.  Each message takes what is known before it to
what is known after it; the messages in flight together take what the receiver knows to what
the sender has said.
-/

namespace Honyar.Channel

variable {κ μ : Type} {R : κ → μ → κ → Prop} {a b c : κ}

/-- The messages take what is known from one state to another. -/
def Carries (R : κ → μ → κ → Prop) : κ → List μ → κ → Prop
  | a, [], c => a = c
  | a, m :: ms, c => ∃ b, R a m b ∧ Carries R b ms c

@[simp] theorem carries_nil : Carries R a [] c ↔ a = c := Iff.rfl

@[simp] theorem carries_cons {m : μ} {ms : List μ} :
    Carries R a (m :: ms) c ↔ ∃ b, R a m b ∧ Carries R b ms c := Iff.rfl

theorem Carries.append {ms ns : List μ} (h : Carries R a ms b) (h' : Carries R b ns c) :
    Carries R a (ms ++ ns) c := by
  induction ms generalizing a with
  | nil =>
    obtain rfl := h
    exact h'
  | cons m ms ih =>
    obtain ⟨k, hm, hms⟩ := h
    exact ⟨k, hm, ih hms⟩

end Honyar.Channel
