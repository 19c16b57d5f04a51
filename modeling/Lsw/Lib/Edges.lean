import Mathlib.Data.Set.Insert
import Mathlib.Logic.Function.Basic
import Mathlib.Logic.Relation
import Mathlib.Tactic.Tauto

/-!
# Presses and Releases

An item, such as a key, is held after its last edge pressed it.  A book has the edges that were sent
and a record of what they leave pressed.  Edges are entered in the record, or an item is tapped, which
leaves the record alone: a tap that loses its release leaves its item pressed, and a tap of an item
that is held releases it.

Requests to press and to release items may be under way.  One side asks, the other side holds no more
than it was asked to: what is asked for in the end bounds what is held, and an item that is held
without being asked for has its release under way.
-/

namespace Lsw.Lib

open Relation

variable {α : Type}

/-! ## Edges -/

/-- An item goes down or up. -/
structure Edge (α : Type) where
  item : α
  down : Bool
  deriving DecidableEq

/-- The edges that were sent, and what is recorded as pressed. -/
structure Book (α : Type) where
  recorded : α → Bool
  edges : List (Edge α)

section Edges

variable [DecidableEq α]

/-- The item is held after these edges. -/
def holds (edges : List (Edge α)) (a : α) : Bool :=
  edges.foldl (fun held edge => if edge.item = a then edge.down else held) false

theorem holds_concat (edges : List (Edge α)) (edge : Edge α) (a : α) :
    holds (edges ++ [edge]) a = if edge.item = a then edge.down else holds edges a := by
  rw [holds, List.foldl_append]
  rfl

/-- Every release is one of an item that is held, but for some items. -/
def Matched (loose : Set α) (edges : List (Edge α)) : Prop :=
  ∀ before a after, edges = before ++ ⟨a, false⟩ :: after → a ∉ loose → holds before a = true

/-- The last edge is new, or it was there before. -/
theorem Matched.concat {loose : Set α} {edges : List (Edge α)} {edge : Edge α}
    (h : Matched loose edges)
    (hedge : edge.down = false → edge.item ∉ loose → holds edges edge.item = true) :
    Matched loose (edges ++ [edge]) := by
  intro before a after hsplit ha
  rcases List.eq_nil_or_concat after with rfl | ⟨after, last, rfl⟩
  · obtain ⟨rfl, hlast⟩ := List.append_inj' hsplit rfl
    obtain rfl : edge = ⟨a, false⟩ := by simpa using hlast
    exact hedge rfl ha
  · have hsplit' : edges ++ [edge] = (before ++ ⟨a, false⟩ :: after) ++ [last] := by
      simpa using hsplit
    exact h before a after (List.append_inj' hsplit' rfl).1 ha

namespace Book

/-- The edge is sent and entered in the record. -/
def enter (edge : Edge α) (book : Book α) : Book α :=
  ⟨Function.update book.recorded edge.item edge.down, book.edges ++ [edge]⟩

/-- The edge is sent. -/
def send (edge : Edge α) (book : Book α) : Book α := { book with edges := book.edges ++ [edge] }

/-- What a tap leaves, when its press and its release arrive or not. -/
def tap (a : α) (pressed released : Bool) (book : Book α) : Book α :=
  let book := if pressed then book.send ⟨a, true⟩ else book
  if released then book.send ⟨a, false⟩ else book

/-- An edge is entered: a press of an item that is asked for, or the release of one that is
    recorded. -/
inductive Enters (asked : Set α) : Book α → Book α → Prop where
  | press {book : Book α} {a : α} (h : a ∈ asked) : Enters asked book (book.enter ⟨a, true⟩)
  | release {book : Book α} {a : α} (h : book.recorded a = true) :
      Enters asked book (book.enter ⟨a, false⟩)

/-- An item is tapped.  Whether its press and its release arrive is settled for each item. -/
inductive Taps (tapped : Set α) (pressed released : α → Bool) : Book α → Book α → Prop where
  | tap {book : Book α} {a : α} (h : a ∈ tapped) :
      Taps tapped pressed released book (book.tap a (pressed a) (released a))

/-- What is held is recorded. -/
def Covered (book : Book α) : Prop := ∀ a, holds book.edges a = true → book.recorded a = true

/-- What is recorded is held, but for some items, of which alone a release may find them up. -/
structure Exact (loose : Set α) (book : Book α) : Prop where
  covered : book.Covered
  holds_of_recorded : ∀ a, book.recorded a = true → a ∉ loose → holds book.edges a = true
  matched : Matched loose book.edges

variable {book book' : Book α} {asked tapped loose : Set α} {pressed released : α → Bool}

@[simp] theorem enter_recorded (edge : Edge α) (book : Book α) (a : α) :
    (book.enter edge).recorded a = if a = edge.item then edge.down else book.recorded a :=
  Function.update_apply ..

@[simp] theorem holds_enter (edge : Edge α) (book : Book α) (a : α) :
    holds (book.enter edge).edges a = if edge.item = a then edge.down else holds book.edges a :=
  holds_concat _ _ _

omit [DecidableEq α] in
@[simp] theorem send_recorded (edge : Edge α) (book : Book α) :
    (book.send edge).recorded = book.recorded := rfl

@[simp] theorem holds_send (edge : Edge α) (book : Book α) (a : α) :
    holds (book.send edge).edges a = if edge.item = a then edge.down else holds book.edges a :=
  holds_concat _ _ _

omit [DecidableEq α] in
@[simp] theorem tap_recorded (a : α) (pressed released : Bool) (book : Book α) :
    (book.tap a pressed released).recorded = book.recorded := by
  cases pressed <;> cases released <;> rfl

/-- After a tap nothing else is held than before. -/
theorem holds_tap_of_ne {a b : α} (pressed released : Bool) (book : Book α) (h : a ≠ b) :
    holds (book.tap a pressed released).edges b = holds book.edges b := by
  cases pressed <;> cases released <;> simp [tap, h]

/-- A released tap leaves its item up. -/
theorem holds_tap_self (a : α) (pressed : Bool) (book : Book α) :
    holds (book.tap a pressed true).edges a = false := by
  cases pressed <;> simp [tap]

/-! ### What is held is recorded -/

theorem Covered.enter (h : book.Covered) (edge : Edge α) : (book.enter edge).Covered := by
  intro a ha
  rw [holds_enter] at ha
  rw [enter_recorded]
  by_cases hitem : edge.item = a
  · rw [if_pos hitem] at ha
    rw [if_pos hitem.symm, ha]
  · rw [if_neg hitem] at ha
    rw [if_neg (Ne.symm hitem), h a ha]

/-- A tap whose release is lost after its press needs its item recorded. -/
theorem Covered.tap {a : α} {pressed released : Bool} (h : book.Covered)
    (hlost : pressed = true → released = false → book.recorded a = true) :
    (book.tap a pressed released).Covered := by
  intro b hb
  rw [tap_recorded]
  by_cases hab : a = b
  · subst hab
    cases released with
    | true => exact absurd hb (by simp [holds_tap_self])
    | false =>
      cases pressed with
      | true => exact hlost rfl rfl
      | false => exact h a hb
  · rw [holds_tap_of_ne _ _ _ hab] at hb
    exact h b hb

theorem Covered.of_enters (h : book.Covered) (hruns : ReflTransGen (Enters asked) book book') :
    book'.Covered := by
  induction hruns with
  | refl => exact h
  | tail _ hstep ih =>
    cases hstep with
    | press _ => exact ih.enter _
    | release _ => exact ih.enter _

omit [DecidableEq α] in
theorem recorded_of_taps (hruns : ReflTransGen (Taps tapped pressed released) book book') :
    book'.recorded = book.recorded := by
  induction hruns with
  | refl => rfl
  | tail _ hstep ih =>
    cases hstep with
    | tap _ => rw [tap_recorded, ih]

theorem Covered.of_taps (h : book.Covered)
    (hruns : ReflTransGen (Taps tapped pressed released) book book')
    (hlost : ∀ a ∈ tapped, pressed a = true → released a = false → book.recorded a = true) :
    book'.Covered := by
  induction hruns with
  | refl => exact h
  | tail hruns hstep ih =>
    cases hstep with
    | tap ha =>
      refine ih.tap fun hpressed hreleased => ?_
      rw [recorded_of_taps hruns]
      exact hlost _ ha hpressed hreleased

/-! ### What is recorded is held -/

theorem Exact.enter (h : book.Exact loose) (edge : Edge α)
    (hedge : edge.down = false → book.recorded edge.item = true) :
    (book.enter edge).Exact loose where
  covered := h.covered.enter edge
  holds_of_recorded a ha hloose := by
    rw [enter_recorded] at ha
    rw [holds_enter]
    by_cases hitem : edge.item = a
    · rw [if_pos hitem.symm] at ha
      rw [if_pos hitem, ha]
    · rw [if_neg (Ne.symm hitem)] at ha
      rw [if_neg hitem, h.holds_of_recorded a ha hloose]
  matched := h.matched.concat fun hup hloose => h.holds_of_recorded _ (hedge hup) hloose

/-- A tap that arrives releases its item, which is a loose one or is not recorded. -/
theorem Exact.tap {a : α} (h : book.Exact loose) (ha : a ∈ loose ∨ book.recorded a = false) :
    (book.tap a true true).Exact loose where
  covered := h.covered.tap fun _ => nofun
  holds_of_recorded b hb hloose := by
    rw [tap_recorded] at hb
    have hab : a ≠ b := by
      rintro rfl
      exact ha.elim hloose fun hup => by simp [hup] at hb
    rw [holds_tap_of_ne _ _ _ hab]
    exact h.holds_of_recorded b hb hloose
  matched := by
    have hpress : Matched loose (book.edges ++ [⟨a, true⟩]) := h.matched.concat nofun
    exact hpress.concat fun _ _ => by simp [holds_concat]

theorem Exact.of_enters (h : book.Exact loose) (hruns : ReflTransGen (Enters asked) book book') :
    book'.Exact loose := by
  induction hruns with
  | refl => exact h
  | tail _ hstep ih =>
    cases hstep with
    | press _ => exact ih.enter _ nofun
    | release hrecorded => exact ih.enter _ fun _ => hrecorded

theorem Exact.of_taps (h : book.Exact loose)
    (hruns : ReflTransGen (Taps tapped (fun _ => true) fun _ => true) book book')
    (hloose : ∀ a ∈ tapped, a ∈ loose ∨ book.recorded a = false) : book'.Exact loose := by
  induction hruns with
  | refl => exact h
  | tail hruns hstep ih =>
    cases hstep with
    | tap ha =>
      refine ih.tap ((hloose _ ha).imp id fun hup => ?_)
      rw [recorded_of_taps hruns]
      exact hup

/-- Only what is asked for is recorded anew. -/
theorem recorded_of_enters (hruns : ReflTransGen (Enters asked) book book') {a : α}
    (h : book'.recorded a = true) : book.recorded a = true ∨ a ∈ asked := by
  induction hruns with
  | refl => exact .inl h
  | tail _ hstep ih =>
    cases hstep with
    | @press b hb =>
      rw [enter_recorded] at h
      by_cases hab : a = b
      · exact .inr (hab ▸ hb)
      · exact ih (by simpa [hab] using h)
    | @release b hb =>
      rw [enter_recorded] at h
      by_cases hab : a = b
      · simp [hab] at h
      · exact ih (by simpa [hab] using h)

end Book

end Edges

/-! ## Requests -/

/-- What a message asks for. -/
inductive Request (α : Type) where
  | press (a : α)
  | release (a : α)
  /-- Everything is released. -/
  | clear
  | other

namespace Request

/-- What is held when the request is met. -/
def result : Request α → Set α → Set α
  | .press a, held => insert a held
  | .release a, held => held \ {a}
  | .clear, _ => ∅
  | .other, held => held

/-- What is held when all requests are met, one after the other. -/
def results (requests : List (Request α)) (held : Set α) : Set α :=
  requests.foldl (fun held request => request.result held) held

/-- The request releases the item. -/
def Drops (a : α) : Request α → Prop
  | .release b => b = a
  | .clear => True
  | _ => False

theorem result_mono (request : Request α) {held held' : Set α} (h : held ⊆ held') :
    request.result held ⊆ request.result held' := by
  cases request with
  | press a => exact Set.insert_subset_insert h
  | release a => exact fun b hb => ⟨h hb.1, hb.2⟩
  | clear => exact subset_rfl
  | other => exact h

@[simp] theorem results_nil (held : Set α) : results [] held = held := rfl

@[simp] theorem results_cons (request : Request α) (requests : List (Request α)) (held : Set α) :
    results (request :: requests) held = results requests (request.result held) := rfl

@[simp] theorem results_append (requests requests' : List (Request α)) (held : Set α) :
    results (requests ++ requests') held = results requests' (results requests held) :=
  List.foldl_append

theorem results_mono (requests : List (Request α)) {held held' : Set α} (h : held ⊆ held') :
    results requests held ⊆ results requests held' := by
  induction requests generalizing held held' with
  | nil => exact h
  | cons request requests ih => exact ih (request.result_mono h)

/-- A request keeps an item that it does not release. -/
theorem mem_result {request : Request α} {a : α} {held : Set α} (h : a ∈ held)
    (hkept : ¬ request.Drops a) : a ∈ request.result held := by
  cases request with
  | press b => exact Set.mem_insert_of_mem b h
  | release b => exact ⟨h, fun hab => hkept (Set.mem_singleton_iff.mp hab).symm⟩
  | clear => exact absurd trivial hkept
  | other => exact h

/-- An item that is held is held in the end, or a request on the way releases it. -/
theorem mem_results_or_drops {requests : List (Request α)} {a : α} {held : Set α} (h : a ∈ held) :
    a ∈ results requests held ∨ ∃ request ∈ requests, request.Drops a := by
  induction requests generalizing held with
  | nil => exact .inl h
  | cons request requests ih =>
    by_cases hdrops : request.Drops a
    · exact .inr ⟨request, List.mem_cons_self, hdrops⟩
    · obtain hheld | ⟨later, hlater, hdrop⟩ := ih (mem_result h hdrops)
      · exact .inl hheld
      · exact .inr ⟨later, List.mem_cons_of_mem _ hlater, hdrop⟩

theorem results_release (released : List α) (held : Set α) :
    results (released.map .release) held = held \ {a | a ∈ released} := by
  induction released generalizing held with
  | nil => exact Set.ext fun b => ⟨fun hb => ⟨hb, nofun⟩, fun hb => hb.1⟩
  | cons a released ih =>
    rw [List.map_cons, results_cons, ih]
    ext b
    simp only [result, Set.mem_sdiff, Set.mem_singleton_iff, Set.mem_ofPred_eq, List.mem_cons]
    tauto

end Request

end Lsw.Lib
