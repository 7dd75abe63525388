import Mathlib.Logic.Function.Basic
import ServiceCall.ByteProofs

/-! # Calls by value and result

    A call by value and result works on copies: the regions it is given are
    fetched, the callee edits the copies, and the copies are written back where
    the regions lie.  A call by reference edits the regions themselves.

    The two do the same as long as the regions lie apart and all of them are
    written back (`valueResult_eq_byReference`); no call by value and result
    changes anything outside of the regions it writes back (`valueResult_frame`). -/

namespace ValueResult

open LinearMemory

variable {V : Type}

/-- A region of a memory, and whether it is written back. -/
structure Region where
  address : Nat
  length  : Nat
  back    : Bool
deriving DecidableEq

/-- What a callee does to one of its copies. -/
structure Edit (V : Type) where
  index  : Nat
  offset : Nat
  value  : V

/-- The copies of some regions. -/
def fetch (m : Nat → V) (rs : List Region) : List (List V) :=
  rs.map fun r => slice m r.address r.length

/-- One of the copies is changed; there is nothing to change behind its end. -/
def edit (xs : List (List V)) (e : Edit V) : List (List V) :=
  xs.modify e.index fun x => x.set e.offset e.value

/-- What is written back, in the order of the regions. -/
def writes : List Region → List (List V) → List (Nat × List V)
  | r :: rs, x :: xs =>
      if r.back then (r.address, x) :: writes rs xs else writes rs xs
  | _, _ => []

/-- The memory after a call by value and result. -/
def valueResult (m : Nat → V) (rs : List Region) (es : List (Edit V)) : Nat → V :=
  overlayAll m (writes rs (es.foldl edit (fetch m rs)))

/-- The region itself is changed. -/
def assign (rs : List Region) (m : Nat → V) (e : Edit V) : Nat → V :=
  match rs[e.index]? with
  | some r => if e.offset < r.length then Function.update m (r.address + e.offset) e.value else m
  | none => m

/-- The memory after a call by reference. -/
def byReference (m : Nat → V) (rs : List Region) (es : List (Edit V)) : Nat → V :=
  es.foldl (assign rs) m

/-- No address lies in both regions. -/
def Apart (r r' : Region) : Prop :=
  ∀ a, ¬ (Covers r.address r.length a ∧ Covers r'.address r'.length a)

theorem apart_of_le {r r' : Region} (h : r.address + r.length ≤ r'.address) : Apart r r' := by
  rintro a ⟨h₁, h₂⟩
  unfold Covers at h₁ h₂
  omega

/-! ## The copies -/

@[simp] theorem fetch_length (m : Nat → V) (rs : List Region) :
    (fetch m rs).length = rs.length := List.length_map ..

@[simp] theorem edit_length (xs : List (List V)) (e : Edit V) :
    (edit xs e).length = xs.length := List.length_modify ..

theorem fetch_getElem? (m : Nat → V) (rs : List Region) (i : Nat) :
    (fetch m rs)[i]? = rs[i]?.map fun r => slice m r.address r.length := List.getElem?_map ..

theorem edit_getElem? (xs : List (List V)) (e : Edit V) (i : Nat) :
    (edit xs e)[i]? = xs[i]?.map fun x => if e.index = i then x.set e.offset e.value else x := by
  rw [edit, List.getElem?_modify]
  cases xs[i]? with
  | none => rfl
  | some x => by_cases h : e.index = i <;> simp [h]

/-- The copies keep their lengths, however they are edited. -/
theorem edits_lengths (xs : List (List V)) (es : List (Edit V)) :
    (es.foldl edit xs).map List.length = xs.map List.length := by
  induction es generalizing xs with
  | nil => rfl
  | cons e es ih =>
      refine (ih _).trans ?_
      refine List.ext_getElem? ?_
      intro i
      rw [List.getElem?_map, List.getElem?_map, edit_getElem?]
      cases xs[i]? with
      | none => rfl
      | some x => by_cases h : e.index = i <;> simp [h]

/-- A cell of a region that is changed is changed in its copy. -/
theorem slice_update (m : Nat → V) {a n k : Nat} (hk : k < n) (v : V) :
    slice (Function.update m (a + k) v) a n = (slice m a n).set k v := by
  refine List.ext_getElem? ?_
  intro i
  by_cases hi : i < n
  · rw [slice_getElem? hi, List.getElem?_set]
    by_cases hki : k = i
    · subst hki
      rw [if_pos rfl, slice_length, if_pos hk, Function.update_self]
    · rw [if_neg hki, slice_getElem? hi, Function.update_of_ne (by omega)]
  · rw [List.getElem?_eq_none (by simpa using hi), List.getElem?_eq_none (by simpa using hi)]

/-- A cell outside of a region is not in its copy. -/
theorem slice_update_of_not_covers (m : Nat → V) {a n i : Nat} (h : ¬ Covers a n i) (v : V) :
    slice (Function.update m i v) a n = slice m a n := by
  refine slice_congr ?_
  intro k hk
  refine Function.update_of_ne ?_ ..
  rintro rfl
  exact h ⟨Nat.le_add_right .., Nat.add_lt_add_left hk a⟩

/-- Where regions lie apart, changing one is changing its copy. -/
theorem fetch_assign {rs : List Region} (h : rs.Pairwise Apart) (m : Nat → V) (e : Edit V) :
    fetch (assign rs m e) rs = edit (fetch m rs) e := by
  refine List.ext_getElem? ?_
  intro i
  rw [edit_getElem?, fetch_getElem?, fetch_getElem?, Option.map_map]
  cases hi : rs[i]? with
  | none => rfl
  | some r =>
      show some _ = some _
      refine congrArg some ?_
      show slice (assign rs m e) r.address r.length
        = if e.index = i then (slice m r.address r.length).set e.offset e.value
          else slice m r.address r.length
      unfold assign
      cases he : rs[e.index]? with
      | none =>
          rw [if_neg]
          rintro rfl
          rw [hi] at he
          cases he
      | some r' =>
          dsimp only
          by_cases hei : e.index = i
          · subst hei
            obtain rfl := Option.some.inj (he.symm.trans hi)
            rw [if_pos rfl]
            split
            · next hk => exact slice_update m hk e.value
            · next hk => rw [List.set_eq_of_length_le (by rw [slice_length]; omega)]
          · rw [if_neg hei]
            split
            · next hk =>
                refine slice_update_of_not_covers m ?_ e.value
                intro hcov
                have hself : Covers r'.address r'.length (r'.address + e.offset) :=
                  ⟨Nat.le_add_right .., Nat.add_lt_add_left hk _⟩
                obtain ⟨hlt', rfl⟩ := List.getElem?_eq_some_iff.mp he
                obtain ⟨hlt, rfl⟩ := List.getElem?_eq_some_iff.mp hi
                rcases Nat.lt_or_gt_of_ne hei with hord | hord
                · exact List.pairwise_iff_getElem.mp h _ _ hlt' hlt hord _ ⟨hself, hcov⟩
                · exact List.pairwise_iff_getElem.mp h _ _ hlt hlt' hord _ ⟨hcov, hself⟩
            · rfl

/-- The same for all the changes of a call. -/
theorem fetch_byReference {rs : List Region} (h : rs.Pairwise Apart) (m : Nat → V)
    (es : List (Edit V)) : fetch (byReference m rs es) rs = es.foldl edit (fetch m rs) := by
  induction es generalizing m with
  | nil => rfl
  | cons e es ih =>
      refine (ih (assign rs m e)).trans ?_
      rw [fetch_assign h]
      rfl

/-! ## Writing back -/

/-- Writing back what another memory has in the regions takes it over, where the two
    memories agree outside of them. -/
theorem overlayAll_fetch {m m' : Nat → V} {rs : List Region} (hback : ∀ r ∈ rs, r.back = true)
    (h : ∀ a, (∀ r ∈ rs, ¬ Covers r.address r.length a) → m' a = m a) :
    overlayAll m (writes rs (fetch m' rs)) = m' := by
  induction rs generalizing m with
  | nil =>
      funext a
      exact (h a (by simp)).symm
  | cons r rs ih =>
      have hr := hback r List.mem_cons_self
      show overlayAll m (if r.back then (r.address, slice m' r.address r.length)
        :: writes rs (fetch m' rs) else writes rs (fetch m' rs)) = m'
      rw [if_pos hr, overlayAll_cons]
      refine ih (fun r' hr' => hback r' (List.mem_cons_of_mem _ hr')) ?_
      intro a ha
      by_cases hcov : Covers r.address r.length a
      · have hcov' : Covers r.address (slice m' r.address r.length).length a := by
          rwa [slice_length]
        have hover : overlay m _ _ a = overlay m' _ _ a := overlay_congr hcov'
        rw [overlay_slice] at hover
        exact hover.symm
      · rw [overlay_uncovered (by rwa [slice_length])]
        refine h a ?_
        intro r' hr'
        rcases List.mem_cons.mp hr' with rfl | hr'
        · exact hcov
        · exact ha r' hr'

/-- A change of a region leaves everything else alone. -/
theorem assign_frame (rs : List Region) (m : Nat → V) (e : Edit V) {a : Nat}
    (h : ∀ r ∈ rs, ¬ Covers r.address r.length a) : assign rs m e a = m a := by
  unfold assign
  cases hr : rs[e.index]? with
  | none => rfl
  | some r =>
      dsimp only
      split
      · next hk =>
          refine Function.update_of_ne ?_ ..
          rintro rfl
          exact h r (List.mem_of_getElem? hr) ⟨Nat.le_add_right .., Nat.add_lt_add_left hk _⟩
      · rfl

/-- A call by reference changes nothing outside of its regions. -/
theorem byReference_frame (m : Nat → V) (rs : List Region) (es : List (Edit V)) {a : Nat}
    (h : ∀ r ∈ rs, ¬ Covers r.address r.length a) : byReference m rs es a = m a := by
  induction es generalizing m with
  | nil => rfl
  | cons e es ih => exact (ih (assign rs m e)).trans (assign_frame rs m e h)

/-- **BY VALUE AND RESULT IS BY REFERENCE** where the regions lie apart and all of them
    are written back. -/
theorem valueResult_eq_byReference {rs : List Region} (hback : ∀ r ∈ rs, r.back = true)
    (h : rs.Pairwise Apart) (m : Nat → V) (es : List (Edit V)) :
    valueResult m rs es = byReference m rs es := by
  rw [valueResult, ← fetch_byReference h]
  exact overlayAll_fetch hback fun a ha => byReference_frame m rs es ha

/-- What is written back lies in the regions that are. -/
theorem mem_writes {rs : List Region} {xs : List (List V)}
    (h : xs.map List.length = rs.map Region.length) {w : Nat × List V} (hw : w ∈ writes rs xs) :
    ∃ r ∈ rs, r.back = true ∧ w.1 = r.address ∧ w.2.length = r.length := by
  induction rs generalizing xs with
  | nil => cases hw
  | cons r rs ih =>
      cases xs with
      | nil => cases hw
      | cons x xs =>
          obtain ⟨hx, hxs⟩ := List.cons.inj h
          rw [writes] at hw
          have rest : w ∈ writes rs xs → ∃ r' ∈ r :: rs, r'.back = true ∧ w.1 = r'.address
              ∧ w.2.length = r'.length := by
            intro hw
            obtain ⟨r', hr', hall⟩ := ih hxs hw
            exact ⟨r', List.mem_cons_of_mem _ hr', hall⟩
          split at hw
          · next hback =>
              rcases List.mem_cons.mp hw with rfl | hw
              · exact ⟨r, List.mem_cons_self, hback, rfl, hx⟩
              · exact rest hw
          · exact rest hw

theorem edits_fetch_lengths (m : Nat → V) (rs : List Region) (es : List (Edit V)) :
    (es.foldl edit (fetch m rs)).map List.length = rs.map Region.length := by
  rw [edits_lengths, fetch, List.map_map]
  refine List.map_congr_left ?_
  intro r _
  exact slice_length ..

/-- **THE FRAME** of a call by value and result, also of one that was broken off. -/
theorem valueResult_frame {m : Nat → V} {rs : List Region} {es : List (Edit V)}
    {ws : List (Nat × List V)} (hws : ws.Sublist (writes rs (es.foldl edit (fetch m rs))))
    {a : Nat} (h : ∀ r ∈ rs, r.back = true → ¬ Covers r.address r.length a) :
    overlayAll m ws a = m a := by
  rw [overlayAll_apply, lastWrite_eq_none.mpr, Option.getD_none]
  intro w hw
  obtain ⟨r, hr, hback, h₁, h₂⟩ := mem_writes (edits_fetch_lengths m rs es) (hws.mem hw)
  rw [h₁, h₂]
  exact h r hr hback

end ValueResult
