import Mathlib.Algebra.GroupWithZero.Nat
import Mathlib.Data.List.Forall2
import Mathlib.Tactic.Common

/-!
# Executions that Return, Fail or Panic

A function of a systems language ends in one of three ways: it returns a value, it
returns an error of its own, or it panics (an index out of bounds, a slice copied into
one of another length, an arithmetic overflow).  `Exec ε α` is that outcome.  The module
gives the primitives whose panics matter for buffers (`index`, `slice`, `copyFromSlice`,
machine-word arithmetic) and the loop rule from which every loop result is derived.

Nothing here names a particular program.
-/

namespace Lsw.Lib

/-! ## Outcomes -/

/-- How a call ends without a value: an error it reports, or a panic. -/
inductive Fault (ε : Type) where
  | error (e : ε)
  | panic
  deriving DecidableEq, Repr

/-- A call that returns `α`, reports an `ε` or panics. -/
abbrev Exec (ε α : Type) := Except (Fault ε) α

section Except

variable {ε α β : Type}

@[simp] theorem ok_bind (a : α) (f : α → Except ε β) : (Except.ok a >>= f) = f a := rfl

@[simp] theorem error_bind (e : ε) (f : α → Except ε β) :
    ((Except.error e : Except ε α) >>= f) = Except.error e := rfl

/-- A computation in two parts returns exactly when both parts do. -/
theorem bind_eq_ok {x : Except ε α} {f : α → Except ε β} {b : β} :
    (x >>= f) = .ok b ↔ ∃ a, x = .ok a ∧ f a = .ok b := by
  cases x with
  | error e => simp
  | ok a => simp

@[simp] theorem pure_eq_ok_iff (a b : α) : (pure a : Except ε α) = .ok b ↔ a = b := by
  simp [pure, Except.pure]

/-- `if bad { return Err(e) }`: continue only when `bad` is false. -/
def rejectIf (bad : Prop) [Decidable bad] (e : ε) : Except ε Unit :=
  if bad then .error e else .ok ()

@[simp] theorem rejectIf_eq_ok (bad : Prop) [Decidable bad] (e : ε) (u : Unit) :
    rejectIf bad e = .ok u ↔ ¬ bad := by
  unfold rejectIf
  split <;> simp_all

theorem rejectIf_of_not {bad : Prop} [Decidable bad] (e : ε) (h : ¬ bad) :
    rejectIf bad e = .ok () := if_neg h

theorem rejectIf_of {bad : Prop} [Decidable bad] (e : ε) (h : bad) :
    rejectIf bad e = .error e := if_pos h

/-- `Option::ok_or`. -/
def okOr (x : Option α) (e : ε) : Except ε α :=
  match x with
  | some a => .ok a
  | none => .error e

@[simp] theorem okOr_some (a : α) (e : ε) : okOr (some a) e = .ok a := rfl

@[simp] theorem okOr_eq_ok (x : Option α) (e : ε) (a : α) :
    okOr x e = .ok a ↔ x = some a := by
  cases x <;> simp [okOr]

/-- Changing the error changes nothing about what is returned. -/
theorem mapError_eq_ok {ε' : Type} {f : ε → ε'} {x : Except ε α} {a : α} :
    x.mapError f = .ok a ↔ x = .ok a := by
  cases x <;> simp [Except.mapError]

@[simp] theorem toOption_eq_some {x : Except ε α} {a : α} : x.toOption = some a ↔ x = .ok a := by
  cases x <;> simp [Except.toOption]

theorem exists_ok_of_isOk {x : Except ε α} (h : x.isOk = true) : ∃ a, x = .ok a := by
  cases x with
  | ok a => exact ⟨a, rfl⟩
  | error e => cases h

theorem exists_error_of_isOk {x : Except ε α} (h : x.isOk = false) : ∃ e, x = .error e := by
  cases x with
  | ok a => cases h
  | error e => exact ⟨e, rfl⟩

end Except

/-- `iter.map(f).collect::<Result<Vec<_>>>()` returns exactly the values of `f`, in order. -/
theorem mapM_eq_ok_iff {ε α β : Type} {f : α → Except ε β} {xs : List α} {ys : List β} :
    xs.mapM f = .ok ys ↔ List.Forall₂ (fun x y => f x = .ok y) xs ys := by
  induction xs generalizing ys with
  | nil =>
    rw [List.mapM_nil, pure_eq_ok_iff, List.forall₂_nil_left_iff, eq_comm]
  | cons x xs ih =>
    simp only [List.mapM_cons, bind_eq_ok, pure_eq_ok_iff, List.forall₂_cons_left_iff]
    constructor
    · rintro ⟨y, hy, rest, hrest, rfl⟩
      exact ⟨y, rest, hy, ih.mp hrest, rfl⟩
    · rintro ⟨y, rest, hy, hrest, rfl⟩
      exact ⟨y, hy, rest, ih.mpr hrest, rfl⟩

/-- Every element on the left of related lists has a partner. -/
theorem exists_of_forall₂ {α β : Type} {R : α → β → Prop} {xs : List α} {ys : List β}
    (h : List.Forall₂ R xs ys) {x : α} (hx : x ∈ xs) : ∃ y ∈ ys, R x y := by
  induction h with
  | nil => simp at hx
  | cons hxy _ ih =>
    rcases List.mem_cons.mp hx with rfl | hx
    · exact ⟨_, List.mem_cons_self, hxy⟩
    · obtain ⟨y, hy, hR⟩ := ih hx
      exact ⟨y, List.mem_cons_of_mem _ hy, hR⟩

/-! ## Machine words -/

/-- The number of values of a 64-bit `usize`. -/
def usizeSize : Nat := 2 ^ 64

/-- The number of values of a `u32`. -/
def u32Size : Nat := 2 ^ 32

/-- `usize::checked_mul`. -/
def checkedMul (a b : Nat) : Option Nat := if a * b < usizeSize then some (a * b) else none

/-- `usize::checked_add`. -/
def checkedAdd (a b : Nat) : Option Nat := if a + b < usizeSize then some (a + b) else none

/-- `usize::saturating_mul`. -/
def saturatingMul (a b : Nat) : Nat := min (a * b) (usizeSize - 1)

theorem checkedMul_eq_some {a b : Nat} (h : a * b < usizeSize) :
    checkedMul a b = some (a * b) := if_pos h

theorem checkedAdd_eq_some {a b : Nat} (h : a + b < usizeSize) :
    checkedAdd a b = some (a + b) := if_pos h

theorem saturatingMul_eq {a b : Nat} (h : a * b < usizeSize) : saturatingMul a b = a * b := by
  unfold saturatingMul
  omega

/-- A 64-bit addition, panicking on overflow. -/
def addUsize {ε : Type} (a b : Nat) : Exec ε Nat :=
  if a + b < usizeSize then .ok (a + b) else .error .panic

/-- A 64-bit multiplication, panicking on overflow. -/
def mulUsize {ε : Type} (a b : Nat) : Exec ε Nat :=
  if a * b < usizeSize then .ok (a * b) else .error .panic

theorem addUsize_eq_ok {ε : Type} {a b : Nat} (h : a + b < usizeSize) :
    addUsize (ε := ε) a b = .ok (a + b) := if_pos h

theorem mulUsize_eq_ok {ε : Type} {a b : Nat} (h : a * b < usizeSize) :
    mulUsize (ε := ε) a b = .ok (a * b) := if_pos h

/-! ## Buffers -/

section Buffers

variable {ε α : Type}

/-- `buffer[i]`. -/
def index (buffer : List α) (i : Nat) : Exec ε α :=
  match buffer[i]? with
  | some a => .ok a
  | none => .error .panic

/-- `buffer[i] = value`. -/
def indexSet (buffer : List α) (i : Nat) (value : α) : Exec ε (List α) :=
  if i < buffer.length then .ok (buffer.set i value) else .error .panic

/-- `&buffer[start..stop]`. -/
def slice (buffer : List α) (start stop : Nat) : Exec ε (List α) :=
  if start ≤ stop ∧ stop ≤ buffer.length then .ok ((buffer.take stop).drop start)
  else .error .panic

/-- `destination.copy_from_slice(source)`. -/
def copyFromSlice (destination source : List α) : Exec ε (List α) :=
  if destination.length = source.length then .ok source else .error .panic

theorem index_eq_ok {buffer : List α} {i : Nat} {a : α} (h : buffer[i]? = some a) :
    index (ε := ε) buffer i = .ok a := by
  simp [index, h]

theorem getElem?_of_index {buffer : List α} {i : Nat} {a : α}
    (h : index (ε := ε) buffer i = .ok a) : buffer[i]? = some a := by
  unfold index at h
  split at h
  · simp_all
  · cases h

theorem indexSet_eq_ok {buffer : List α} {i : Nat} (value : α) (h : i < buffer.length) :
    indexSet (ε := ε) buffer i value = .ok (buffer.set i value) := if_pos h

theorem slice_eq_ok {buffer : List α} {start stop : Nat} (h : start ≤ stop)
    (h' : stop ≤ buffer.length) :
    slice (ε := ε) buffer start stop = .ok ((buffer.take stop).drop start) := if_pos ⟨h, h'⟩

theorem copyFromSlice_eq_ok {destination source : List α}
    (h : destination.length = source.length) :
    copyFromSlice (ε := ε) destination source = .ok source := if_pos h

theorem copyFromSlice_panics {destination source : List α}
    (h : destination.length ≠ source.length) :
    copyFromSlice (ε := ε) destination source = .error .panic := if_neg h

end Buffers

/-! ## Loops -/

section Loops

variable {ε σ α : Type}

/-- `for x in xs { state = body(state, x)? }`. -/
def forEach (xs : List α) (body : σ → α → Except ε σ) (s : σ) : Except ε σ :=
  xs.foldlM body s

@[simp] theorem forEach_nil (body : σ → α → Except ε σ) (s : σ) :
    forEach [] body s = .ok s := rfl

@[simp] theorem forEach_cons (x : α) (xs : List α) (body : σ → α → Except ε σ) (s : σ) :
    forEach (x :: xs) body s = body s x >>= forEach xs body := rfl

/-- The loop rule: an invariant indexed by the part of the list already visited, kept by
    every iteration, holds when the loop returns, and the loop does return. -/
theorem forEach_spec {xs : List α} {body : σ → α → Except ε σ} (inv : List α → σ → Prop)
    {s : σ} (hinit : inv [] s)
    (hstep : ∀ seen x rest t, xs = seen ++ x :: rest → inv seen t →
      ∃ t', body t x = .ok t' ∧ inv (seen ++ [x]) t') :
    ∃ t, forEach xs body s = .ok t ∧ inv xs t := by
  -- Generalise over the visited prefix, then recurse on what is left of the list.
  suffices h : ∀ rest seen t, xs = seen ++ rest → inv seen t →
      ∃ t', forEach rest body t = .ok t' ∧ inv xs t' by
    exact h xs [] s rfl hinit
  intro rest
  induction rest with
  | nil =>
    intro seen t hxs hinv
    refine ⟨t, rfl, ?_⟩
    rw [hxs, List.append_nil]
    exact hinv
  | cons x rest ih =>
    intro seen t hxs hinv
    obtain ⟨t', hbody, hinv'⟩ := hstep seen x rest t hxs hinv
    obtain ⟨t'', hrest, hfinal⟩ := ih (seen ++ [x]) t' (by simp [hxs]) hinv'
    exact ⟨t'', by rw [forEach_cons, hbody, ok_bind, hrest], hfinal⟩

/-- A loop that only appends to its accumulator collects what its iterations append. -/
theorem forEach_append {β : Type} {xs : List α} {body : List β → α → Except ε (List β)}
    {piece : α → List β} (hbody : ∀ x ∈ xs, ∀ acc, body acc x = .ok (acc ++ piece x))
    (acc : List β) : forEach xs body acc = .ok (acc ++ xs.flatMap piece) := by
  induction xs generalizing acc with
  | nil => simp
  | cons x xs ih =>
    rw [forEach_cons, hbody x List.mem_cons_self, ok_bind,
      ih (fun x' hx' => hbody x' (List.mem_cons_of_mem x hx')), List.flatMap_cons,
      List.append_assoc]

/-- A loop that checks each element, and against those before it, and collects it. -/
theorem forEach_collect {β : Type} {body : List β → α → Except ε (List β)} {key : α → β}
    {Q : α → Prop} {R : β → β → Prop}
    (hbody : ∀ seen x out, body seen x = .ok out →
      out = seen ++ [key x] ∧ Q x ∧ ∀ y ∈ seen, R y (key x))
    {xs : List α} {seen out : List β} (h : forEach xs body seen = .ok out)
    (hseen : seen.Pairwise R) :
    out = seen ++ xs.map key ∧ (∀ x ∈ xs, Q x) ∧ out.Pairwise R := by
  induction xs generalizing seen with
  | nil =>
    rw [forEach_nil, Except.ok.injEq] at h
    subst h
    exact ⟨by simp, by simp, hseen⟩
  | cons x xs ih =>
    rw [forEach_cons, bind_eq_ok] at h
    obtain ⟨next, hnext, hrest⟩ := h
    obtain ⟨rfl, hx, hR⟩ := hbody _ _ _ hnext
    have hpair : (seen ++ [key x]).Pairwise R := by
      rw [List.pairwise_append]
      exact ⟨hseen, List.pairwise_singleton _ _, by simpa using hR⟩
    obtain ⟨hout, hall, hfinal⟩ := ih hrest hpair
    refine ⟨by simp [hout], ?_, hfinal⟩
    intro x' hx'
    rcases List.mem_cons.mp hx' with rfl | hmem
    · exact hx
    · exact hall x' hmem

/-- Such a loop returns when every check passes. -/
theorem forEach_collect_eq_ok {β : Type} {body : List β → α → Except ε (List β)} {key : α → β}
    {Q : α → Prop} {R : β → β → Prop}
    (hbody : ∀ seen x, Q x → (∀ y ∈ seen, R y (key x)) → body seen x = .ok (seen ++ [key x]))
    {xs : List α} {seen : List β} (hQ : ∀ x ∈ xs, Q x)
    (hR : (seen ++ xs.map key).Pairwise R) :
    forEach xs body seen = .ok (seen ++ xs.map key) := by
  induction xs generalizing seen with
  | nil => simp
  | cons x xs ih =>
    have hx : ∀ y ∈ seen, R y (key x) := fun y hy =>
      (List.pairwise_append.mp hR).2.2 y hy (key x) (by simp)
    rw [forEach_cons, hbody seen x (hQ x List.mem_cons_self) hx, ok_bind,
      ih (fun x' hx' => hQ x' (List.mem_cons_of_mem x hx')) (by simpa using hR)]
    simp

/-- A loop that only checks passes when every element does. -/
theorem forEach_check {body : Unit → α → Except ε Unit} {xs : List α} {u : Unit}
    (h : forEach xs body () = .ok u) : ∀ x ∈ xs, body () x = .ok () := by
  induction xs with
  | nil => simp
  | cons x xs ih =>
    rw [forEach_cons, bind_eq_ok] at h
    obtain ⟨_, hx, hrest⟩ := h
    intro x' hx'
    rcases List.mem_cons.mp hx' with rfl | hmem
    · exact hx
    · exact ih hrest x' hmem

theorem forEach_check_of {body : Unit → α → Except ε Unit} {xs : List α}
    (h : ∀ x ∈ xs, body () x = .ok ()) : forEach xs body () = .ok () := by
  induction xs with
  | nil => rfl
  | cons x xs ih =>
    rw [forEach_cons, h x List.mem_cons_self, ok_bind]
    exact ih fun y hy => h y (List.mem_cons_of_mem _ hy)

/-- `for i in 0..n { … }`. -/
def forRange (n : Nat) (body : σ → Nat → Except ε σ) (s : σ) : Except ε σ :=
  forEach (List.range n) body s

/-- The loop rule for counted loops. -/
theorem forRange_spec {n : Nat} {body : σ → Nat → Except ε σ} (inv : Nat → σ → Prop) {s : σ}
    (hinit : inv 0 s)
    (hstep : ∀ i t, i < n → inv i t → ∃ t', body t i = .ok t' ∧ inv (i + 1) t') :
    ∃ t, forRange n body s = .ok t ∧ inv n t := by
  have hrule : ∃ t, forEach (List.range n) body s = .ok t ∧ inv (List.range n).length t := by
    refine forEach_spec (fun seen t => inv seen.length t) hinit ?_
    intro seen x rest t hxs hinv
    have hlen : seen.length < n := by
      have := congrArg List.length hxs
      simp at this
      omega
    have hx : x = seen.length := by
      have hget : (List.range n)[seen.length]? = some x := by simp [hxs]
      rw [List.getElem?_range hlen] at hget
      exact (Option.some.inj hget).symm
    subst hx
    simpa using hstep seen.length t hlen hinv
  simpa [forRange] using hrule

end Loops

end Lsw.Lib
