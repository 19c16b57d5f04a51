import Lsw.Lib.Exec
import Mathlib.Tactic.Ring

/-!
# Reading and Writing Bytes

Big-endian words and a byte reader.  A reader consumes the front of a byte list and may
fail; `Reads r bytes a` says that `r` turns exactly `bytes` into `a` and leaves whatever
follows untouched.  The predicate composes with `>>=`, so the round trip of a message is
put together from the round trips of its fields.

`Spells r spell valid` is the converse as well: `r` returns `a` on no other front than
`spell a`.  A message whose fields all spell their values has one encoding per value.
-/

namespace Lsw.Lib

/-- A byte string. -/
abbrev Bytes := List UInt8

/-! ## Big-endian words -/

/-- The `k` low bytes of `n`, most significant first. -/
def beBytes : Nat → Nat → Bytes
  | 0, _ => []
  | k + 1, n => beBytes k (n / 256) ++ [UInt8.ofNat n]

/-- The number a byte string denotes, most significant byte first. -/
def ofBeBytes (bytes : Bytes) : Nat :=
  bytes.foldl (fun acc b => acc * 256 + b.toNat) 0

@[simp] theorem length_beBytes (k n : Nat) : (beBytes k n).length = k := by
  induction k generalizing n with
  | zero => rfl
  | succ k ih => simp [beBytes, ih]

theorem ofBeBytes_concat (bytes : Bytes) (b : UInt8) :
    ofBeBytes (bytes ++ [b]) = ofBeBytes bytes * 256 + b.toNat := by
  simp [ofBeBytes]

/-- Writing a word and reading it back gives its `k` low bytes. -/
theorem ofBeBytes_beBytes (k n : Nat) : ofBeBytes (beBytes k n) = n % 256 ^ k := by
  induction k generalizing n with
  | zero => simp [beBytes, ofBeBytes, Nat.mod_one]
  | succ k ih =>
    have hb : (UInt8.ofNat n).toNat = n % 256 := by simp
    have hpow : 256 ^ (k + 1) = 256 * 256 ^ k := by ring
    rw [beBytes, ofBeBytes_concat, ih, hb, hpow, Nat.mod_mul]
    ring

theorem ofBeBytes_beBytes_of_lt {k n : Nat} (h : n < 256 ^ k) :
    ofBeBytes (beBytes k n) = n := by
  rw [ofBeBytes_beBytes, Nat.mod_eq_of_lt h]

/-- A byte string of length `k` is the word it denotes. -/
theorem beBytes_ofBeBytes {k : Nat} {bytes : Bytes} (h : bytes.length = k) :
    beBytes k (ofBeBytes bytes) = bytes := by
  induction k generalizing bytes with
  | zero => simp [beBytes, List.length_eq_zero_iff.mp h]
  | succ k ih =>
    obtain ⟨front, last, rfl⟩ : ∃ front last, bytes = front ++ [last] :=
      ⟨_, _, (List.dropLast_concat_getLast (by rintro rfl; simp at h)).symm⟩
    have hfront : front.length = k := by simpa using h
    have hdiv : (ofBeBytes front * 256 + last.toNat) / 256 = ofBeBytes front := by
      have := last.toNat_lt
      omega
    have hlast : UInt8.ofNat (ofBeBytes front * 256 + last.toNat) = last := by
      apply UInt8.toNat_inj.mp
      have := last.toNat_lt
      simp only [UInt8.toNat_ofNat']
      omega
    rw [beBytes, ofBeBytes_concat, hdiv, hlast, ih hfront]

/-- A word of `k` bytes is below `256 ^ k`. -/
theorem ofBeBytes_lt {k : Nat} {bytes : Bytes} (h : bytes.length = k) :
    ofBeBytes bytes < 256 ^ k := by
  have hmod := ofBeBytes_beBytes k (ofBeBytes bytes)
  rw [beBytes_ofBeBytes h] at hmod
  rw [hmod]
  exact Nat.mod_lt _ (Nat.pow_pos (by decide))

/-! ## Readers -/

/-- A reader of the front of a byte string. -/
abbrev Reader (ε α : Type) := StateT Bytes (Except ε) α

section Readers

variable {ε α β : Type}

/-- `r` turns `bytes` into `a` and leaves what follows them. -/
def Reads (r : Reader ε α) (bytes : Bytes) (a : α) : Prop :=
  ∀ rest, r.run (bytes ++ rest) = .ok (a, rest)

theorem Reads.pure {a b : α} (h : a = b) : Reads (Pure.pure a : Reader ε α) [] b := by
  subst h
  intro rest
  rfl

/-- Sequencing: the first reader takes the front, the second one the back. -/
theorem Reads.bind {r : Reader ε α} {f : α → Reader ε β} {front back bytes : Bytes} {a : α}
    {b : β} (hbytes : bytes = front ++ back) (hr : Reads r front a) (hf : Reads (f a) back b) :
    Reads (r >>= f) bytes b := by
  intro rest
  rw [hbytes, List.append_assoc, StateT.run_bind, hr (back ++ rest)]
  exact hf rest

/-- Sequencing after a step that reads nothing. -/
theorem Reads.bind_nil {r : Reader ε α} {f : α → Reader ε β} {bytes : Bytes} {a : α} {b : β}
    (hr : Reads r [] a) (hf : Reads (f a) bytes b) : Reads (r >>= f) bytes b :=
  Reads.bind rfl hr hf

/-- What a reader returns on a complete message, nothing left over. -/
theorem Reads.run_eq {r : Reader ε α} {bytes : Bytes} {a : α} (h : Reads r bytes a) :
    r.run bytes = .ok (a, []) := by
  simpa using h []

/-- Take the next `n` bytes, or fail with `e`. -/
def takeBytes (n : Nat) (e : ε) : Reader ε Bytes := fun remaining =>
  if remaining.length < n then .error e else .ok (remaining.take n, remaining.drop n)

theorem reads_takeBytes {n : Nat} (e : ε) {bytes : Bytes} (h : bytes.length = n) :
    Reads (takeBytes n e) bytes bytes := by
  intro rest
  have hlen : ¬ (bytes ++ rest).length < n := by simp [← h]
  show (if _ then _ else _) = _
  rw [if_neg hlen, ← h, List.take_left, List.drop_left]

/-- A step that reads nothing and returns. -/
theorem reads_lift_ok {x : Except ε α} {a : α} (h : x = .ok a) :
    Reads (liftM x : Reader ε α) [] a := by
  subst h
  intro rest
  rfl

/-! ## Readers that accept one spelling only -/

/-- `r` returns `a` exactly where `a` is `valid` and spelled `spell a`. -/
def Spells (r : Reader ε α) (spell : α → Bytes) (valid : α → Prop) : Prop :=
  ∀ bytes a rest, r.run bytes = .ok (a, rest) ↔ valid a ∧ bytes = spell a ++ rest

theorem Spells.reads {r : Reader ε α} {spell : α → Bytes} {valid : α → Prop}
    (h : Spells r spell valid) {a : α} (ha : valid a) : Reads r (spell a) a :=
  fun rest => (h _ a rest).mpr ⟨ha, rfl⟩

theorem run_bind_eq_ok {r : Reader ε α} {f : α → Reader ε β} {bytes rest : Bytes} {b : β} :
    (r >>= f).run bytes = .ok (b, rest) ↔
      ∃ a mid, r.run bytes = .ok (a, mid) ∧ (f a).run mid = .ok (b, rest) := by
  rw [StateT.run_bind, bind_eq_ok]
  constructor
  · rintro ⟨⟨a, mid⟩, hr, hf⟩
    exact ⟨a, mid, hr, hf⟩
  · rintro ⟨a, mid, hr, hf⟩
    exact ⟨(a, mid), hr, hf⟩

theorem run_pure_eq_ok {bytes rest : Bytes} {a b : α} :
    (Pure.pure a : Reader ε α).run bytes = .ok (b, rest) ↔ a = b ∧ bytes = rest := by
  rw [StateT.run_pure, pure_eq_ok_iff, Prod.mk.injEq]

theorem run_lift_eq_ok {x : Except ε α} {bytes rest : Bytes} {a : α} :
    (liftM x : Reader ε α).run bytes = .ok (a, rest) ↔ x = .ok a ∧ bytes = rest := by
  cases x with
  | error e => simp [liftM, monadLift, MonadLift.monadLift, StateT.lift, StateT.run]
  | ok b =>
    show Except.ok (b, bytes) = Except.ok (a, rest) ↔ _
    simp

theorem run_takeBytes_eq_ok {n : Nat} {e : ε} {bytes front rest : Bytes} :
    (takeBytes n e).run bytes = .ok (front, rest) ↔ front.length = n ∧ bytes = front ++ rest := by
  constructor
  · intro h
    replace h : (if bytes.length < n then (.error e : Except ε (Bytes × Bytes))
        else .ok (bytes.take n, bytes.drop n)) = .ok (front, rest) := h
    split at h
    · cases h
    · next hlen =>
      cases h
      exact ⟨List.length_take_of_le (Nat.le_of_not_lt hlen), (List.take_append_drop n bytes).symm⟩
  · rintro ⟨hlen, rfl⟩
    exact reads_takeBytes e hlen rest

/-- `(0..n).map(|_| r).collect()`. -/
def readMany (n : Nat) (r : Reader ε α) : Reader ε (List α) :=
  match n with
  | 0 => Pure.pure []
  | n + 1 => do
    let a ← r
    let rest ← readMany n r
    return a :: rest

/-- A run of fields spells the values one after the other. -/
theorem Spells.readMany {r : Reader ε α} {spell : α → Bytes} {valid : α → Prop}
    (h : Spells r spell valid) (n : Nat) :
    Spells (Lib.readMany n r) (fun values => values.flatMap spell)
      (fun values => values.length = n ∧ ∀ a ∈ values, valid a) := by
  -- Over the number of fields that are still to be read.
  induction n with
  | zero =>
    intro bytes values rest
    rw [Lib.readMany, run_pure_eq_ok]
    constructor
    · rintro ⟨rfl, rfl⟩
      simp
    · rintro ⟨⟨hlen, -⟩, rfl⟩
      simp [List.length_eq_zero_iff.mp hlen]
  | succ n ih =>
    intro bytes values rest
    simp only [Lib.readMany, run_bind_eq_ok, run_pure_eq_ok, h _ _ _, ih _ _ _]
    constructor
    · rintro ⟨a, mid, ⟨ha, rfl⟩, tail, last, ⟨⟨hlen, hall⟩, rfl⟩, rfl, rfl⟩
      simpa [hlen] using ⟨ha, hall⟩
    · rintro ⟨⟨hlen, hall⟩, rfl⟩
      cases values with
      | nil => simp at hlen
      | cons a tail =>
        simp only [List.mem_cons, forall_eq_or_imp] at hall
        exact ⟨a, _, ⟨hall.1, by rw [List.flatMap_cons, List.append_assoc]⟩, tail, rest,
          ⟨⟨by simpa using hlen, hall.2⟩, rfl⟩, rfl, rfl⟩

end Readers

end Lsw.Lib
