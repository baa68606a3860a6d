import Honyar.Lib.CText
import Honyar.Lib.Chunks

/-!
# The byte stream between gateway and client

`hylinkDispatch` (hylinkSend.c) puts a JSON text between 0x02 and 0x03 and
writes it to a TCP connection; `epollClientCb` (epollClient.c) reads what has
arrived, closes it with a NUL and hands it to `hylinkRecvManage`
(hylinkRecv.c), which starts `hylinkRecvJson` behind every 0x02 of what it got.
Nothing is kept from one chunk to the next.

The parser `cJSON_Parse` is a parameter `parse`: it reads one value from the
front of a text and ignores what follows.
-/

namespace Honyar.Hylink

open Chunks Option List

variable {J : Type} (parse : CText → Option J)

/-- 0x02, which opens a frame. -/
def stx : Char := Char.ofNat 2

/-- 0x03, which closes it. -/
def etx : Char := Char.ofNat 3

/-- The size of `hyLinkSendBuf`. -/
def sendBufLen : Nat := 1024

/-- The bytes `hylinkDispatch` writes: the frame, a NUL behind it, all in
`hyLinkSendBuf`. -/
def hylinkDispatch (str : CText) : Option CText :=
  if str.length + 2 < sendBufLen then some (stx :: str ++ [etx]) else none

/-- The values `hylinkRecvJson` got a complete text of, when `hylinkRecvManage`
works through one chunk. -/
def hylinkRecvManage : CText → List J
  | [] => []
  | b :: data =>
    if b = stx then (parse data).toList ++ hylinkRecvManage data else hylinkRecvManage data

example : hylinkRecvManage parse [etx] = [] := by
  rw [hylinkRecvManage, if_neg (by decide), hylinkRecvManage]

/-- A JSON text and its value: `cJSON_Parse` finds the value at the front of
whatever starts with the text, and none in a text that breaks off.  A control
character in a JSON string is escaped, so 0x02 does not occur. -/
structure Message where
  /-- The text sent. -/
  text : CText
  /-- What it denotes. -/
  value : J
  /-- The frame's opening byte is not in the text. -/
  stx_notMem : stx ∉ text
  /-- What follows the text is ignored. -/
  parse_append (r : CText) : parse (text ++ r) = some value
  /-- A text that breaks off is no value. -/
  parse_take (n : Nat) (h : n < text.length) : parse (text.take n) = none

variable {parse}

/-- The frames of the messages, as one stream. -/
def stream (ms : List (Message parse)) : CText := ms.flatMap fun m => stx :: m.text ++ [etx]

/-- The messages of a stream whose opening byte and text arrive in one chunk;
the first of the stream's frames starts at position `i`. -/
def arrived (cs : List CText) : Nat → List (Message parse) → List J
  | _, [] => []
  | i, m :: ms =>
    if Within cs i (m.text.length + 1) then m.value :: arrived cs (i + (m.text.length + 2)) ms
    else arrived cs (i + (m.text.length + 2)) ms

example (cs : List CText) (i : Nat) : arrived cs i ([] : List (Message parse)) = [] := by
  rw [arrived]

/-! ## What one chunk delivers -/

@[simp] theorem stream_cons (m : Message parse) (ms : List (Message parse)) :
    stream (m :: ms) = stx :: (m.text ++ etx :: stream ms) := by
  simp [stream]

theorem stx_notMem_etx : stx ∉ [etx] := by decide

theorem hylinkRecvManage_append {t : CText} (ht : stx ∉ t) (c : CText) :
    hylinkRecvManage parse (t ++ c) = hylinkRecvManage parse c := by
  induction t with
  | nil => rfl
  | cons b t ih =>
    rw [mem_cons, not_or] at ht
    rw [cons_append, hylinkRecvManage, if_neg (Ne.symm ht.1), ih ht.2]

theorem hylinkRecvManage_eq_nil {t : CText} (ht : stx ∉ t) : hylinkRecvManage parse t = [] := by
  rw [← append_nil t, hylinkRecvManage_append ht]
  rfl

theorem hylinkRecvManage_take (m : Message parse) {n : Nat} (h : n < m.text.length) :
    hylinkRecvManage parse (stx :: m.text.take n) = [] := by
  have hfree : stx ∉ m.text.take n := fun hm => m.stx_notMem (mem_of_mem_take hm)
  rw [hylinkRecvManage, if_pos rfl, m.parse_take n h, hylinkRecvManage_eq_nil hfree]
  rfl

theorem hylinkRecvManage_text (m : Message parse) (c : CText) :
    hylinkRecvManage parse (stx :: (m.text ++ c)) = m.value :: hylinkRecvManage parse c := by
  rw [hylinkRecvManage, if_pos rfl, m.parse_append, hylinkRecvManage_append m.stx_notMem]
  rfl

/-! ## What a cut stream delivers -/

theorem arrived_behind (c : CText) (cs : List CText) (i : Nat) (ms : List (Message parse)) :
    arrived (c :: cs) (c.length + i) ms = arrived cs i ms := by
  induction ms generalizing i with
  | nil => rfl
  | cons m ms ih =>
    rw [arrived, arrived, Nat.add_assoc, ih]
    simp only [within_behind (Nat.succ_pos _)]

theorem arrived_drop (c d : CText) (cs : List CText) (i : Nat) (ms : List (Message parse)) :
    arrived ((c ++ d) :: cs) (c.length + i) ms = arrived (d :: cs) i ms := by
  induction ms generalizing i with
  | nil => rfl
  | cons m ms ih =>
    rw [arrived, arrived, Nat.add_assoc, ih]
    simp only [within_drop]

theorem stream_eq_nil {ms : List (Message parse)} (h : stream ms = []) : ms = [] := by
  cases ms with
  | nil => rfl
  | cons m ms => simp at h

/-- One chunk, the rest of a frame `t` first: the induction is on the frames,
since a chunk may hold any number of them; `rest` says what the chunks behind it
deliver. -/
theorem recv_chunk {cs : List CText}
    (rest : ∀ (t : CText) (ms : List (Message parse)), stx ∉ t → cs.flatten = t ++ stream ms →
      cs.flatMap (hylinkRecvManage parse) = arrived cs t.length ms)
    (c t : CText) (ms : List (Message parse)) (ht : stx ∉ t)
    (h : c ++ cs.flatten = t ++ stream ms) :
    hylinkRecvManage parse c ++ cs.flatMap (hylinkRecvManage parse) =
      arrived (c :: cs) t.length ms := by
  induction ms generalizing c t with
  | nil =>
    -- nothing follows the rest of the last frame
    have hc : stx ∉ c := by
      intro hm
      apply ht
      have : stx ∈ c ++ cs.flatten := mem_append_left _ hm
      simpa [h, stream] using this
    have hcs : stx ∉ cs.flatten := by
      intro hm
      apply ht
      have : stx ∈ c ++ cs.flatten := mem_append_right _ hm
      simpa [h, stream] using this
    rw [hylinkRecvManage_eq_nil hc, rest cs.flatten [] hcs (by simp [stream])]
    rfl
  | cons m ms ih =>
    rcases append_eq_append_iff.mp h with ⟨u, rfl, hu⟩ | ⟨d, rfl, hd⟩
    · -- the chunk ends before the next frame begins
      rw [mem_append, not_or] at ht
      rw [hylinkRecvManage_eq_nil ht.1, nil_append, rest u (m :: ms) ht.2 hu,
        length_append, arrived_behind]
    · rw [hylinkRecvManage_append ht, ← Nat.add_zero t.length, arrived_drop]
      cases d with
      | nil =>
        -- the chunk ends just before the next frame
        have hrest := rest [] (m :: ms) not_mem_nil hd.symm
        rw [hylinkRecvManage, nil_append, hrest]
        exact (arrived_behind [] cs 0 (m :: ms)).symm
      | cons b e =>
        rw [stream_cons, cons_append, List.cons.injEq] at hd
        obtain ⟨rfl, he⟩ := hd
        -- the frame's text is in the chunk, and `f` behind it
        have whole (f : CText) (hf : e = m.text ++ f)
            (hr : f ++ cs.flatten = [etx] ++ stream ms) :
            hylinkRecvManage parse (stx :: e) ++ cs.flatMap (hylinkRecvManage parse) =
              arrived ((stx :: e) :: cs) 0 (m :: ms) := by
          have hin : Within ((stx :: e) :: cs) 0 (m.text.length + 1) := by
            rw [within_front, hf]
            simp
          have hpos : 0 + (m.text.length + 2) = (stx :: m.text).length + 1 := by simp
          rw [arrived, if_pos hin, hf, hylinkRecvManage_text, cons_append,
            ih f [etx] stx_notMem_etx hr, hpos]
          exact congrArg _ (arrived_drop (stx :: m.text) f cs 1 ms).symm
        rcases append_eq_append_iff.mp he with ⟨f, hf, hr⟩ | ⟨u, hu, hr⟩
        · exact whole f hf (by rw [← hr]; rfl)
        · cases u with
          | nil =>
            rw [append_nil] at hu
            exact whole [] (by rw [append_nil, hu]) hr
          | cons b u =>
            -- the chunk breaks off inside the text
            have hlt : e.length < m.text.length := by
              rw [hu, length_append, length_cons]
              omega
            have hout : ¬ Within ((stx :: e) :: cs) 0 (m.text.length + 1) := by
              rw [within_front]
              omega
            have hpos : 0 + (m.text.length + 2) =
                (stx :: e).length + (b :: u ++ [etx]).length := by
              rw [hu]
              simp
              omega
            have hfree : stx ∉ b :: u ++ [etx] := by
              rw [mem_append, not_or]
              refine ⟨fun hm => m.stx_notMem ?_, stx_notMem_etx⟩
              rw [hu]
              exact mem_append_right _ hm
            have hnone : hylinkRecvManage parse (stx :: e) = [] := by
              have htake : m.text.take e.length = e := by rw [hu, take_left]
              rw [← htake]
              exact hylinkRecvManage_take m hlt
            rw [arrived, if_neg hout, hpos, arrived_behind, hnone, nil_append]
            exact rest _ ms hfree (by rw [hr]; simp)

theorem recv_chunks (cs : List CText) (t : CText) (ms : List (Message parse)) (ht : stx ∉ t)
    (h : cs.flatten = t ++ stream ms) :
    cs.flatMap (hylinkRecvManage parse) = arrived cs t.length ms := by
  induction cs generalizing t ms with
  | nil =>
    have hms : ms = [] := stream_eq_nil (append_eq_nil_iff.mp h.symm).2
    rw [hms]
    rfl
  | cons c cs ih =>
    rw [flatten_cons] at h
    rw [flatMap_cons]
    exact recv_chunk ih c t ms ht h

theorem length_arrived_le (cs : List CText) (i : Nat) (ms : List (Message parse)) :
    (arrived cs i ms).length ≤ ms.length := by
  induction ms generalizing i with
  | nil => exact Nat.le_refl 0
  | cons m ms ih =>
    have hrest := ih (i + (m.text.length + 2))
    rw [arrived]
    split
    · exact Nat.succ_le_succ hrest
    · exact Nat.le_succ_of_le hrest

/-- All the frames of a stream are whole: each one's opening byte and text came
in one chunk.  Where its 0x03 came does not matter. -/
def Whole (cs : List CText) (ms : List (Message parse)) : Prop :=
  ∀ ms₁ m ms₂, ms = ms₁ ++ m :: ms₂ → Within cs (stream ms₁).length (m.text.length + 1)

/-- Nothing is missing among what arrived when every frame is whole. -/
theorem arrived_eq_map_iff (cs : List CText) (i : Nat) (ms : List (Message parse)) :
    arrived cs i ms = ms.map Message.value ↔
      ∀ ms₁ m ms₂, ms = ms₁ ++ m :: ms₂ →
        Within cs (i + (stream ms₁).length) (m.text.length + 1) := by
  induction ms generalizing i with
  | nil => simp [arrived]
  | cons m ms ih =>
    have hstream (ms₁ : List (Message parse)) : i + (m.text.length + 2) + (stream ms₁).length =
        i + (stream (m :: ms₁)).length := by
      simp
      omega
    rw [arrived]
    split
    next hin =>
      rw [map_cons, List.cons.injEq, and_iff_right rfl, ih]
      constructor
      · intro h ms₁ m' ms₂ hms
        cases ms₁ with
        | nil =>
          obtain ⟨rfl, -⟩ := List.cons.inj hms
          exact hin
        | cons m₁ ms₁ =>
          obtain ⟨rfl, hrest⟩ := List.cons.inj hms
          rw [← hstream]
          exact h ms₁ m' ms₂ hrest
      · intro h ms₁ m' ms₂ hms
        rw [hstream]
        exact h (m :: ms₁) m' ms₂ (congrArg (m :: ·) hms)
    next hout =>
      constructor
      · intro h
        have hle := length_arrived_le cs (i + (m.text.length + 2)) ms
        rw [h, length_map, length_cons] at hle
        omega
      · intro h
        exact absurd (h [] m ms rfl) hout

theorem flatten_of_mapM {ms : List (Message parse)} {fs : List CText}
    (h : ms.mapM (fun m => hylinkDispatch m.text) = some fs) : fs.flatten = stream ms := by
  induction ms generalizing fs with
  | nil =>
    rw [mapM_nil, Option.pure_def, some.injEq] at h
    rw [← h]
    rfl
  | cons m ms ih =>
    simp only [mapM_cons, bind_eq_bind, bind_eq_some_iff, Option.pure_def,
      some.injEq] at h
    obtain ⟨f, hf, fs', hfs, rfl⟩ := h
    have hframe : stx :: m.text ++ [etx] = f := by
      rw [hylinkDispatch] at hf
      split at hf
      · exact some.inj hf
      · cases hf
    rw [flatten_cons, ih hfs, ← hframe]
    simp

/-- However the frames `hylinkDispatch` writes for a list of messages are cut
into chunks, `hylinkRecvManage` hands on exactly these messages, in order and
each once, if and only if no cut falls between a frame's opening byte and the
end of its text. -/
theorem recv_eq_sent_iff (ms : List (Message parse)) (fs cs : List CText)
    (hs : ms.mapM (fun m => hylinkDispatch m.text) = some fs) (hc : cs.flatten = fs.flatten) :
    cs.flatMap (hylinkRecvManage parse) = ms.map Message.value ↔ Whole cs ms := by
  have hcs : cs.flatten = [] ++ stream ms := by rw [hc, flatten_of_mapM hs, nil_append]
  rw [recv_chunks cs [] ms not_mem_nil hcs, arrived_eq_map_iff]
  simp only [length_nil, Nat.zero_add, Whole]

/-! ## A message that is cut -/

namespace Sample

/-- The empty object, and what `cJSON_Parse` makes of the texts around it. -/
def emptyObject : CText := ['{', '}']

def parseEmpty (t : CText) : Option CText :=
  if emptyObject.isPrefixOf t then some emptyObject else none

/-- The empty object as a message. -/
def empty : Message parseEmpty where
  text := emptyObject
  value := emptyObject
  stx_notMem := by decide
  parse_append r := by simp [parseEmpty, emptyObject]
  parse_take
    | 0, _ => rfl
    | 1, _ => rfl

end Sample

open Sample in
/-- Two messages in two chunks, the first chunk ending before the second 0x02. -/
theorem recv_eq_sent_two :
    [stx :: emptyObject, etx :: stx :: emptyObject ++ [etx]].flatMap
      (hylinkRecvManage parseEmpty) = [emptyObject, emptyObject] :=
  (recv_eq_sent_iff [empty, empty]
    [stx :: emptyObject ++ [etx], stx :: emptyObject ++ [etx]] _ rfl rfl).mpr (by
      rintro (_ | ⟨m₁, _ | ⟨m₂, ms₁⟩⟩) m ms₂ h
      · obtain ⟨rfl, -⟩ := List.cons.inj h
        decide
      · obtain ⟨rfl, hrest⟩ := List.cons.inj h
        obtain ⟨rfl, -⟩ := List.cons.inj hrest
        decide
      · simp at h)

open Sample in
/-- A message cut inside its text is lost: the first chunk holds no complete
text and the second no 0x02. -/
theorem recv_ne_sent_of_cut :
    ¬ ∀ (J : Type) (parse : CText → Option J) (ms : List (Message parse)) (fs cs : List CText),
      ms.mapM (fun m => hylinkDispatch m.text) = some fs → cs.flatten = fs.flatten →
        cs.flatMap (hylinkRecvManage parse) = ms.map Message.value := by
  intro h
  have hcut := h CText parseEmpty [empty] [stx :: emptyObject ++ [etx]]
    [[stx, '{'], ['}', etx]] rfl rfl
  revert hcut
  decide

end Honyar.Hylink
