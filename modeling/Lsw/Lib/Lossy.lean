import Lsw.Lib.Text
import Lsw.Lib.Wire

/-!
# Text of Any Bytes

Bytes that need not be UTF-8, read as text: what is no character becomes the replacement character.
An ASCII byte stands for itself wherever it is, so it also ends whatever came before it.
-/

namespace Lsw.Lib

/-- The number of bytes that follow a lead byte of UTF-8, and the bounds of the first of them. -/
def utf8Lead (lead : UInt8) : Option (Nat × UInt8 × UInt8) :=
  if 0xc2 ≤ lead ∧ lead ≤ 0xdf then some (1, 0x80, 0xbf)
  else if lead = 0xe0 then some (2, 0xa0, 0xbf)
  else if lead = 0xed then some (2, 0x80, 0x9f)
  else if 0xe1 ≤ lead ∧ lead ≤ 0xef then some (2, 0x80, 0xbf)
  else if lead = 0xf0 then some (3, 0x90, 0xbf)
  else if 0xf1 ≤ lead ∧ lead ≤ 0xf3 then some (3, 0x80, 0xbf)
  else if lead = 0xf4 then some (3, 0x80, 0x8f)
  else none

/-- The bytes of `rest` that continue a character, up to `count`. -/
def utf8Continuation : Nat → UInt8 → UInt8 → Bytes → Bytes
  | count + 1, low, high, b :: rest =>
    if low ≤ b ∧ b ≤ high then b :: utf8Continuation count 0x80 0xbf rest else []
  | _, _, _, _ => []

/-- `String::from_utf8_lossy`: every sequence that is no character, as long as it could be the
    start of one, becomes one replacement character.  The first argument bounds the number of
    characters. -/
def fromUtf8Lossy : Nat → Bytes → Str
  | 0, _ => []
  | _, [] => []
  | n + 1, b :: rest =>
    if b < 0x80 then
      Char.ofNat b.toNat :: fromUtf8Lossy n rest
    else
      match utf8Lead b with
      | none => Char.ofNat 0xfffd :: fromUtf8Lossy n rest
      | some (count, low, high) =>
        let continuation := utf8Continuation count low high rest
        let rest := rest.drop continuation.length
        if continuation.length = count then
          let lead := b.toNat % 2 ^ (6 - count)
          Char.ofNat (continuation.foldl (fun value b => value * 64 + b.toNat % 64) lead) ::
            fromUtf8Lossy n rest
        else
          Char.ofNat 0xfffd :: fromUtf8Lossy n rest

/-! ## ASCII -/

/-- ASCII text is read as it is. -/
theorem fromUtf8Lossy_ascii {contents : Bytes} (h : ∀ b ∈ contents, b < 0x80) :
    fromUtf8Lossy contents.length contents = contents.map fun b => Char.ofNat b.toNat := by
  induction contents with
  | nil => rfl
  | cons b contents ih =>
    rw [List.length_cons, fromUtf8Lossy, if_pos (h b List.mem_cons_self),
      ih fun c hc => h c (List.mem_cons_of_mem b hc), List.map_cons]

/-! ## ASCII within other bytes -/

/-- `String::from_utf8_lossy` of all of the bytes. -/
def lossy (contents : Bytes) : Str := fromUtf8Lossy contents.length contents

/-- A bound that is large enough makes no difference. -/
theorem fromUtf8Lossy_bound {n m : Nat} {contents : Bytes} (hn : contents.length ≤ n)
    (hm : contents.length ≤ m) : fromUtf8Lossy n contents = fromUtf8Lossy m contents := by
  induction n generalizing m contents with
  | zero =>
    obtain rfl := List.eq_nil_of_length_eq_zero (Nat.le_zero.mp hn)
    cases m <;> rfl
  | succ n ih =>
    cases contents with
    | nil => cases m <;> rfl
    | cons b rest =>
      obtain ⟨m, rfl⟩ := Nat.exists_eq_add_of_lt (Nat.lt_of_lt_of_le (Nat.zero_lt_succ _) hm)
      rw [Nat.zero_add] at hm ⊢
      rw [List.length_cons] at hn hm
      have hrest : ∀ k, fromUtf8Lossy n (rest.drop k) = fromUtf8Lossy m (rest.drop k) := by
        intro k
        have hdrop := List.length_drop (i := k) (l := rest)
        exact ih (by omega) (by omega)
      have hall := hrest 0
      rw [List.drop_zero] at hall
      rw [fromUtf8Lossy, fromUtf8Lossy, hall]
      simp only [hrest]

/-- The bytes of a text, one character after the other. -/
theorem lossy_cons (b : UInt8) (rest : Bytes) :
    lossy (b :: rest) =
      if b < 0x80 then Char.ofNat b.toNat :: lossy rest
      else
        match utf8Lead b with
        | none => Char.ofNat 0xfffd :: lossy rest
        | some (count, low, high) =>
          let continuation := utf8Continuation count low high rest
          if continuation.length = count then
            let lead := b.toNat % 2 ^ (6 - count)
            Char.ofNat (continuation.foldl (fun value b => value * 64 + b.toNat % 64) lead) ::
              lossy (rest.drop continuation.length)
          else
            Char.ofNat 0xfffd :: lossy (rest.drop continuation.length) := by
  have hrest : ∀ k, fromUtf8Lossy rest.length (rest.drop k) = lossy (rest.drop k) := by
    intro k
    have hdrop := List.length_drop (i := k) (l := rest)
    exact fromUtf8Lossy_bound (by omega) (Nat.le_refl _)
  rw [lossy, List.length_cons, fromUtf8Lossy]
  simp only [hrest]
  rfl

theorem low_of_utf8Lead {b low high : UInt8} {count : Nat}
    (h : utf8Lead b = some (count, low, high)) : (0x80 : UInt8) ≤ low := by
  have hlow : low = 0x80 ∨ low = 0xa0 ∨ low = 0x90 := by
    unfold utf8Lead at h
    grind
  rcases hlow with rfl | rfl | rfl <;> decide

/-- An ASCII byte continues no character. -/
theorem utf8Continuation_append {count : Nat} {low high b : UInt8} (hlow : (0x80 : UInt8) ≤ low)
    (hb : b < 0x80) (front rest : Bytes) :
    utf8Continuation count low high (front ++ b :: rest) =
      utf8Continuation count low high front := by
  induction front generalizing count low high with
  | nil =>
    cases count with
    | zero => rfl
    | succ count =>
      have hnot : ¬ (low ≤ b ∧ b ≤ high) := fun h =>
        absurd (UInt8.lt_of_lt_of_le hb (UInt8.le_trans hlow h.1)) (UInt8.lt_irrefl b)
      rw [List.nil_append, utf8Continuation, if_neg hnot]
      rfl
  | cons c front ih =>
    cases count with
    | zero => rfl
    | succ count =>
      rw [List.cons_append, utf8Continuation, utf8Continuation, ih (UInt8.le_refl _)]

theorem length_utf8Continuation_le (count : Nat) (low high : UInt8) (front : Bytes) :
    (utf8Continuation count low high front).length ≤ front.length := by
  induction front generalizing count low high with
  | nil => cases count <;> exact Nat.le_refl 0
  | cons c front ih =>
    cases count with
    | zero => exact Nat.zero_le _
    | succ count =>
      rw [utf8Continuation]
      split
      · exact Nat.succ_le_succ (ih _ _ _)
      · exact Nat.zero_le _

/-- What is in front of an ASCII byte is read without what is behind it. -/
theorem lossy_append_cons {b : UInt8} (hb : b < 0x80) (front rest : Bytes) :
    lossy (front ++ b :: rest) = lossy front ++ Char.ofNat b.toNat :: lossy rest := by
  -- By the length of what is in front, since a sequence of several bytes is read at once.
  induction hn : front.length using Nat.strong_induction_on generalizing front with
  | _ n ih =>
    cases front with
    | nil =>
      rw [List.nil_append, lossy_cons, if_pos hb]
      rfl
    | cons c front =>
      -- What is left in front behind a sequence is shorter.
      have hdrop : ∀ k, k ≤ front.length → lossy ((front ++ b :: rest).drop k) =
          lossy (front.drop k) ++ Char.ofNat b.toNat :: lossy rest := by
        intro k hk
        have hlength := List.length_drop (i := k) (l := front)
        rw [List.length_cons] at hn
        rw [List.drop_append_of_le_length hk]
        exact ih (front.drop k).length (by omega) _ rfl
      have hall := hdrop 0 (Nat.zero_le _)
      rw [List.drop_zero, List.drop_zero] at hall
      rw [List.cons_append, lossy_cons, lossy_cons, hall]
      cases hlead : utf8Lead c with
      | none =>
        dsimp only
        split <;> rfl
      | some found =>
        obtain ⟨count, low, high⟩ := found
        -- An ASCII byte continues no sequence, so what is behind it plays no part.
        have hcontinuation := @utf8Continuation_append count low high b
          (low_of_utf8Lead hlead) hb front rest
        have hrest := hdrop _ (length_utf8Continuation_le count low high front)
        dsimp only
        rw [hcontinuation, hrest]
        split
        · rfl
        · split <;> rfl

/-- So is what is in front of ASCII text, and what is behind it. -/
theorem lossy_append_ascii {middle : Str} (hne : middle ≠ []) (h : ∀ c ∈ middle, c.toNat < 128)
    (front rest : Bytes) :
    lossy (front ++ (bytes middle ++ rest)) = lossy front ++ (middle ++ lossy rest) := by
  induction middle generalizing front with
  | nil => exact absurd rfl hne
  | cons c middle ih =>
    obtain ⟨hc, hrest⟩ := List.forall_mem_cons.mp h
    have hb : UInt8.ofNat c.toNat < 0x80 := by
      rw [UInt8.lt_iff_toNat_lt, UInt8.toNat_ofNat', Nat.mod_eq_of_lt (by omega)]
      exact hc
    rw [bytes_cons_of_ascii hc, List.cons_append, lossy_append_cons hb,
      ofNat_toNat_of_ascii hc]
    cases middle with
    | nil => rfl
    | cons d middle =>
      have htail := ih (List.cons_ne_nil d middle) hrest []
      rw [List.nil_append] at htail
      rw [htail]
      rfl

/-- ASCII text has one byte for each character. -/
theorem bytes_of_ascii {s : Str} (h : ∀ c ∈ s, c.toNat < 128) :
    bytes s = s.map fun c => UInt8.ofNat c.toNat := by
  induction s with
  | nil => rfl
  | cons c s ih =>
    obtain ⟨hc, hrest⟩ := List.forall_mem_cons.mp h
    rw [bytes_cons_of_ascii hc, ih hrest, List.map_cons]

end Lsw.Lib
