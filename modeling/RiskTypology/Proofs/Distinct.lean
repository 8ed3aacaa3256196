import Mathlib.Data.Finset.Card
import Mathlib.Data.Finset.Dedup
import Mathlib.Data.List.Induction

/-!
# Lists without repeats

Counting distinct ids stands for comparing sets of ids. The count of one list without repeats is at
most that of another exactly when it misses no more of the other than the other misses of it; where
one is part of the other this is inclusion the other way. Dropping repeats keeps the order in which
the items first occur.
-/

namespace RiskTypology.Distinct

variable {α : Type} [BEq α] [LawfulBEq α]

/-- Nothing repeats once repeats are dropped. -/
theorem nodup_eraseDups (l : List α) : l.eraseDups.Nodup := by
  match l with
  | [] => exact List.nodup_nil
  | a :: rest =>
    rw [List.eraseDups_cons, List.nodup_cons]
    exact ⟨by simp, nodup_eraseDups _⟩
termination_by l.length
decreasing_by exact Nat.lt_succ_of_le (List.length_filter_le _ _)

/-- Once repeats are dropped there are as many items as there are different ones. -/
theorem length_eraseDups {α : Type} [DecidableEq α] (l : List α) :
    l.eraseDups.length = l.toFinset.card := by
  rw [← List.toFinset_card_of_nodup (nodup_eraseDups l)]
  congr 1
  ext a
  simp

private theorem length_filter_mem {a b : List α} (ha : a.Nodup) (hb : b.Nodup) :
    (a.filter (b.contains ·)).length = (b.filter (a.contains ·)).length := by
  apply List.Perm.length_eq
  rw [List.perm_ext_iff_of_nodup (ha.filter _) (hb.filter _)]
  intro x
  simp [and_comm]

private theorem length_filter_add (a b : List α) :
    (a.filter (b.contains ·)).length + (a.filter (!b.contains ·)).length = a.length := by
  simpa [List.countP_eq_length_filter] using
    (List.length_eq_countP_add_countP (b.contains ·) (l := a)).symm

/-- One list without repeats is no longer than another exactly when it has no more that the other
lacks than the other has that it lacks. -/
theorem length_le_iff {a b : List α} (ha : a.Nodup) (hb : b.Nodup) :
    a.length ≤ b.length ↔
      (a.filter (!b.contains ·)).length ≤ (b.filter (!a.contains ·)).length := by
  have hc := length_filter_mem ha hb
  have hl := length_filter_add a b
  have hr := length_filter_add b a
  omega

/-- A part without repeats is as long as the whole only when it is the whole. -/
theorem length_le_iff_subset {a b : List α} (ha : a.Nodup) (hb : b.Nodup) (h : b ⊆ a) :
    a.length ≤ b.length ↔ a ⊆ b := by
  have hn : b.filter (!a.contains ·) = [] := by
    apply List.filter_eq_nil_iff.mpr
    intro x hx
    simp [h hx]
  rw [length_le_iff ha hb, hn, List.length_nil, Nat.le_zero, List.length_eq_zero_iff,
    List.filter_eq_nil_iff]
  constructor
  · intro hm x hx
    simpa using hm x hx
  · intro hs x hx
    simp [hs hx]

private theorem eraseDups_concat (l : List α) (a : α) :
    (l ++ [a]).eraseDups = if a ∈ l then l.eraseDups else l.eraseDups ++ [a] := by
  rw [List.eraseDups_append]
  by_cases h : a ∈ l
  · simp [List.removeAll, h]
  · simp [List.removeAll, h, List.eraseDups_cons]

variable {β : Type} (p : β → Bool) (f : β → α)

/-- Where an item that counts first occurs under a name; the length of the list if it never does. -/
def firstAt (l : List β) (a : α) : Nat := l.findIdx fun x ↦ p x && f x == a

private theorem firstAt_lt {l : List β} {a : α} (h : a ∈ (l.filter p).map f) :
    firstAt p f l a < l.length := by
  obtain ⟨y, hy, rfl⟩ := List.mem_map.mp h
  obtain ⟨hyl, hyp⟩ := List.mem_filter.mp hy
  exact List.findIdx_lt_length.mpr ⟨y, hyl, by simp [hyp]⟩

private theorem firstAt_concat {l : List β} {a : α} (h : a ∈ (l.filter p).map f) (x : β) :
    firstAt p f (l ++ [x]) a = firstAt p f l a := by
  have hlt := firstAt_lt p f h
  rw [firstAt] at hlt
  rw [firstAt, List.findIdx_append, if_pos hlt, firstAt]

private theorem le_firstAt_concat {l : List β} {a : α} (h : a ∉ (l.filter p).map f) (x : β) :
    l.length ≤ firstAt p f (l ++ [x]) a := by
  have hge : ¬ l.findIdx (fun y ↦ p y && f y == a) < l.length := by
    intro hlt
    obtain ⟨y, hyl, hy⟩ := List.findIdx_lt_length.mp hlt
    rw [Bool.and_eq_true, beq_iff_eq] at hy
    exact h (List.mem_map.mpr ⟨y, List.mem_filter.mpr ⟨hyl, hy.1⟩, hy.2⟩)
  rw [firstAt, List.findIdx_append, if_neg hge]
  exact Nat.le_add_left _ _

/-- Dropping repeats keeps the names of the items that count in the order of their first items. -/
theorem pairwise_firstAt_eraseDups (l : List β) :
    ((l.filter p).map f).eraseDups.Pairwise fun a b ↦ firstAt p f l a < firstAt p f l b := by
  induction l using List.reverseRecOn with
  | nil => simp
  | append_singleton l x ih =>
    have hkept : ((l.filter p).map f).eraseDups.Pairwise fun a b ↦
        firstAt p f (l ++ [x]) a < firstAt p f (l ++ [x]) b := by
      apply List.Pairwise.imp_of_mem _ ih
      intro a b ha hb hab
      rw [firstAt_concat p f (List.mem_eraseDups.mp ha),
        firstAt_concat p f (List.mem_eraseDups.mp hb)]
      exact hab
    by_cases hp : p x = true
    · rw [List.filter_append, List.map_append, List.filter_cons_of_pos hp, List.filter_nil,
        List.map_singleton, eraseDups_concat]
      split
      · exact hkept
      · next hx =>
        apply List.pairwise_append.mpr
        refine ⟨hkept, List.pairwise_singleton _ _, ?_⟩
        intro a ha b hb
        have ha := List.mem_eraseDups.mp ha
        rw [List.mem_singleton.mp hb, firstAt_concat p f ha]
        exact Nat.lt_of_lt_of_le (firstAt_lt p f ha) (le_firstAt_concat p f hx x)
    · rw [List.filter_append, List.filter_cons_of_neg hp, List.filter_nil, List.append_nil]
      exact hkept

end RiskTypology.Distinct
