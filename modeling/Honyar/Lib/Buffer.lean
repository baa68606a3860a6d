import Honyar.Lib.Undefined

/-!
# Arrays that are written byte by byte

An array of a fixed size: a write inside it replaces what stands there, a write behind its end is
a fault.  Bytes written one behind the other replace an interval, and the array keeps its size.
-/

namespace Honyar

variable {α : Type}

/-- `buf[i] = a`. -/
def setByte (buf : List α) (i : Nat) (a : α) : Except Fault (List α) :=
  if i < buf.length then .ok (buf.set i a) else .error .memory

/-- The bytes from `pos` on are written, one by one. -/
def writeAt (buf : List α) (pos : Nat) : List α → Except Fault (List α)
  | [] => .ok buf
  | a :: as => do writeAt (← setByte buf pos a) (pos + 1) as

/-- `strncpy(&buf[pos], src, n)`, of a text that is not shorter. -/
def strncpyAt (buf : List α) (pos : Nat) (src : List α) (n : Nat) : Except Fault (List α) :=
  writeAt buf pos (src.take n)

open Faults List

variable {buf buf' : List α} {pos : Nat} {as bs : List α} {a : α}

theorem setByte_eq_ok : setByte buf pos a = .ok buf' ↔ pos < buf.length ∧ buf' = buf.set pos a := by
  unfold setByte
  split
  next h => simp [h, eq_comm]
  next h => simp [h]

theorem writeAt_append :
    writeAt buf pos (as ++ bs) =
      writeAt buf pos as >>= fun b => writeAt b (pos + as.length) bs := by
  induction as generalizing buf pos with
  | nil => rfl
  | cons a as ih =>
    rw [cons_append, writeAt, writeAt]
    cases setByte buf pos a with
    | error e => rfl
    | ok b =>
      rw [ok_bind, ok_bind, ih, length_cons]
      simp only [Nat.add_assoc, Nat.add_comm 1]

/-- A single byte. -/
theorem writeAt_singleton : writeAt buf pos [a] = setByte buf pos a := by
  rw [writeAt]
  cases setByte buf pos a <;> rfl

theorem setByte_length (h : setByte buf pos a = .ok buf') : buf'.length = buf.length := by
  obtain ⟨-, rfl⟩ := setByte_eq_ok.mp h
  exact length_set

theorem writeAt_length (h : writeAt buf pos as = .ok buf') : buf'.length = buf.length := by
  induction as generalizing buf pos with
  | nil => exact congrArg length (Except.ok.inj h).symm
  | cons a as ih =>
    rw [writeAt] at h
    obtain ⟨b, hb, h⟩ := bind_eq_ok.mp h
    rw [ih h, setByte_length hb]

/-- What is written replaces an interval of the array. -/
theorem writeAt_eq_ok (hne : as ≠ []) :
    writeAt buf pos as = .ok buf' ↔ pos + as.length ≤ buf.length ∧
      buf' = buf.take pos ++ as ++ buf.drop (pos + as.length) := by
  induction as generalizing buf pos with
  | nil => exact absurd rfl hne
  | cons a as ih =>
    rw [writeAt, bind_eq_ok]
    simp only [setByte_eq_ok]
    have hset (h : pos < buf.length) : (buf.set pos a).take (pos + 1) = buf.take pos ++ [a] := by
      rw [take_add_one, take_set_of_le (le_refl pos), getElem?_set_self h]
      rfl
    have hdrop (n : Nat) (h : pos < n) : (buf.set pos a).drop n = buf.drop n :=
      drop_set_of_lt h
    cases as with
    | nil =>
      simp only [writeAt, Except.ok.injEq, length_cons, length_nil, Nat.zero_add]
      constructor
      · rintro ⟨b, ⟨hpos, rfl⟩, rfl⟩
        refine ⟨hpos, ?_⟩
        rw [← hset hpos, ← hdrop (pos + 1) (Nat.lt_succ_self pos), take_append_drop]
      · rintro ⟨hpos, rfl⟩
        refine ⟨_, ⟨hpos, rfl⟩, ?_⟩
        rw [← hset hpos, ← hdrop (pos + 1) (Nat.lt_succ_self pos), take_append_drop]
    | cons c cs =>
      have hlen : pos + 1 + (c :: cs).length = pos + (a :: c :: cs).length := by
        simp only [length_cons]
        omega
      constructor
      · rintro ⟨b, ⟨hpos, rfl⟩, h⟩
        obtain ⟨hle, rfl⟩ := (ih (cons_ne_nil c cs)).mp h
        rw [length_set, hlen] at hle
        refine ⟨hle, ?_⟩
        rw [hset hpos, hlen, hdrop _ (by simp only [length_cons]; omega)]
        simp
      · rintro ⟨hle, rfl⟩
        have hpos : pos < buf.length := by
          simp only [length_cons] at hle
          omega
        refine ⟨_, ⟨hpos, rfl⟩, (ih (cons_ne_nil c cs)).mpr ⟨?_, ?_⟩⟩
        · rwa [length_set, hlen]
        · rw [hset hpos, hlen, hdrop _ (by simp only [length_cons]; omega)]
          simp

end Honyar
