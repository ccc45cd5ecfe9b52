import Mathlib.Data.List.Nodup
import Mathlib.Data.List.Pairwise
import Mathlib.Data.List.Perm.Basic
import Mathlib.Data.List.Sort
import Mathlib.Tactic.Common

/-!
# Pages of a sorted result

A client reads a result page by page, one statement for each page.  A statement sorts the rows by a
preorder and may choose, each time anew, how rows that tie come.

* `Arranged` — the rows in an order a statement may return;
* `pages` — the pages of consecutive statements, one after another;
* `before`, `upTo` — the places that a row and those that tie with it take;
* `NoTieAcross` — no boundary between two pages falls among rows that tie;
* `pages_perm_iff` — **PROVED**: the pages list every row exactly once, however the ties are broken,
  exactly if no tie goes across two pages;
* `pagesAt_perm_iff` — **PROVED**: the same where the offset is bounded.
-/

namespace Paging

variable {ρ : Type*} {r : ρ → ρ → Prop} {rows s t : List ρ} {l : ℕ}

/-- The rows of a statement: all of them, sorted. -/
structure Arranged (r : ρ → ρ → Prop) (rows s : List ρ) : Prop where
  perm : s.Perm rows
  sorted : s.Pairwise r

/-- The first `n` pages, page `i` from the `i`-th statement. -/
def pages (arr : ℕ → List ρ) (l n : ℕ) : List ρ :=
  (List.range n).flatMap fun i => ((arr i).drop (i * l)).take l

/-- How many pages it takes to reach the end. -/
def pageCount (total l : ℕ) : ℕ := (total + l - 1) / l

theorem lt_pageCount {total i : ℕ} (hl : 0 < l) : i < pageCount total l ↔ i * l < total := by
  unfold pageCount
  rw [← Nat.succ_le_iff, Nat.le_div_iff_mul_le hl, Nat.succ_mul]
  omega

theorem le_pageCount_mul {total : ℕ} (hl : 0 < l) : total ≤ pageCount total l * l := by
  by_contra h
  exact absurd ((lt_pageCount hl).mpr (not_le.mp h)) (lt_irrefl _)

/-- The pages of one arrangement are its rows. -/
theorem pages_const (s : List ρ) (l n : ℕ) : pages (fun _ => s) l n = s.take (n * l) := by
  induction n with
  | zero => rw [Nat.zero_mul, List.take_zero]; rfl
  | succ n ih =>
    unfold pages at ih ⊢
    rw [List.range_succ, List.flatMap_append, ih, Nat.succ_mul, List.take_add]
    simp

/-! ### The places of a row -/

section Places

variable (r) [DecidableRel r]

/-- The rows that have to come before a row. -/
def before (rows : List ρ) (x : ρ) : ℕ := rows.countP fun y => decide (r y x ∧ ¬ r x y)

/-- Those, the row, and the rows that tie with it. -/
def upTo (rows : List ρ) (x : ρ) : ℕ := rows.countP fun y => decide (r y x)

/-- No boundary between two pages falls among rows that tie. -/
def NoTieAcross (rows : List ρ) (l : ℕ) : Prop :=
  ∀ x ∈ rows, ∀ i, ¬ (before r rows x < i * l ∧ i * l < upTo r rows x)

variable {r}

theorem before_perm (h : s.Perm rows) (x : ρ) : before r s x = before r rows x := h.countP_eq _

theorem upTo_perm (h : s.Perm rows) (x : ρ) : upTo r s x = upTo r rows x := h.countP_eq _

/-- In a sorted list a row stands at one of its places. -/
theorem place_mem [Std.Refl r] {u v : List ρ} {x : ρ} (h : (u ++ x :: v).Pairwise r) :
    before r (u ++ x :: v) x ≤ u.length ∧ u.length < upTo r (u ++ x :: v) x := by
  rw [List.pairwise_append, List.pairwise_cons] at h
  obtain ⟨-, ⟨hv, -⟩, hu⟩ := h
  constructor
  · unfold before
    have hzero : (x :: v).countP (fun y => decide (r y x ∧ ¬ r x y)) = 0 := by
      rw [List.countP_eq_zero]
      intro y hy
      rcases List.mem_cons.mp hy with rfl | hy
      · simp
      · simp [hv y hy]
    rw [List.countP_append, hzero, Nat.add_zero]
    exact List.countP_le_length
  · unfold upTo
    have hall : u.countP (fun y => decide (r y x)) = u.length :=
      List.countP_eq_length.mpr fun y hy => decide_eq_true (hu y hy x List.mem_cons_self)
    have hself : (x :: v).countP (fun y => decide (r y x)) =
        v.countP (fun y => decide (r y x)) + 1 :=
      List.countP_cons_of_pos (decide_eq_true (refl_of r x))
    rw [List.countP_append, hall, hself]
    omega

/-- Up to a boundary that cuts no tie, a sorted list is determined. -/
theorem take_eq_filter [Std.Refl r] (hs : s.Pairwise r) {b : ℕ}
    (hclean : ∀ x ∈ s, ¬ (before r s x < b ∧ b < upTo r s x)) :
    s.take b = s.filter fun x => decide (before r s x < b) := by
  have hsplit := List.take_append_drop b s
  have hfirst : ∀ x ∈ s.take b, before r s x < b := by
    intro x hx
    obtain ⟨u, v, huv⟩ := List.append_of_mem hx
    have hlen := congrArg List.length huv
    rw [List.length_take, List.length_append, List.length_cons] at hlen
    have heq : s = u ++ x :: (v ++ s.drop b) := by
      rw [← List.cons_append, ← List.append_assoc, ← huv]
      exact hsplit.symm
    rw [heq] at hs
    have hplace := (place_mem hs).1
    rw [← heq] at hplace
    omega
  have hrest : ∀ x ∈ s.drop b, ¬ before r s x < b := by
    intro x hx hlt
    obtain ⟨u, v, huv⟩ := List.append_of_mem hx
    have hlen := congrArg List.length huv
    rw [List.length_drop, List.length_append, List.length_cons] at hlen
    have heq : s = (s.take b ++ u) ++ x :: v := by
      rw [List.append_assoc, ← huv, hsplit]
    rw [heq] at hs
    have hplace := (place_mem hs).2
    rw [← heq, List.length_append, List.length_take] at hplace
    exact hclean x (List.mem_of_mem_drop hx) ⟨hlt, by omega⟩
  conv_rhs => rw [← hsplit, List.filter_append]
  rw [hsplit, List.filter_eq_self.mpr fun x hx => decide_eq_true (hfirst x hx),
    List.filter_eq_nil_iff.mpr fun x hx => by simpa using hrest x hx, List.append_nil]

theorem take_perm [Std.Refl r] (hs : Arranged r rows s) (ht : Arranged r rows t) {b : ℕ}
    (hclean : ∀ x ∈ rows, ¬ (before r rows x < b ∧ b < upTo r rows x)) :
    (s.take b).Perm (t.take b) := by
  have hfilter : ∀ {a : List ρ}, Arranged r rows a →
      a.take b = a.filter fun x => decide (before r rows x < b) := by
    intro a ha
    rw [take_eq_filter ha.sorted fun x hx => by
      rw [before_perm ha.perm, upTo_perm ha.perm]
      exact hclean x (ha.perm.mem_iff.mp hx)]
    simp only [before_perm ha.perm]
  rw [hfilter hs, hfilter ht]
  exact (hs.perm.trans ht.perm.symm).filter _

/-- A page between two such boundaries holds the same rows in every arrangement. -/
theorem page_perm [Std.Refl r] (hs : Arranged r rows s) (ht : Arranged r rows t)
    (hno : NoTieAcross r rows l) (i : ℕ) :
    ((s.drop (i * l)).take l).Perm ((t.drop (i * l)).take l) := by
  have hstart := take_perm hs ht fun x hx => hno x hx i
  have hend := take_perm hs ht fun x hx => hno x hx (i + 1)
  rw [Nat.succ_mul, List.take_add, List.take_add] at hend
  exact (List.perm_append_left_iff _).mp (hend.trans (hstart.symm.append_right _))

/-! ### Ties -/

/-- What ties with nothing after it comes before. -/
theorem upTo_le_before [IsTrans ρ r] [Std.Total r] {x y : ρ} (h : ¬ r x y) :
    upTo r rows y ≤ before r rows x := by
  have hyx : r y x := (total_of r x y).resolve_left h
  refine List.countP_mono_left fun z _ hz => ?_
  have hzy : r z y := of_decide_eq_true hz
  exact decide_eq_true ⟨trans_of r hzy hyx, fun hxz => h (trans_of r hxz hzy)⟩

/-- A row at a place of another one ties with it. -/
theorem ties_of_place [IsTrans ρ r] [Std.Total r] {u v : List ρ} {x y : ρ}
    (h : (u ++ y :: v).Pairwise r) (hlow : before r (u ++ y :: v) x ≤ u.length)
    (hhigh : u.length < upTo r (u ++ y :: v) x) : r x y ∧ r y x := by
  have hrefl : Std.Refl r := ⟨fun a => (total_of r a a).elim id id⟩
  obtain ⟨hy₁, hy₂⟩ := place_mem h
  constructor
  · by_contra hxy
    have hbefore : upTo r (u ++ y :: v) y ≤ before r (u ++ y :: v) x := upTo_le_before hxy
    omega
  · by_contra hyx
    have hbefore : upTo r (u ++ y :: v) x ≤ before r (u ++ y :: v) y := upTo_le_before hyx
    omega

/-- Where a boundary falls among rows that tie, two of them stand on its two sides. -/
theorem exists_tied_neighbours [IsTrans ρ r] [Std.Total r] (hs : s.Pairwise r) {x : ρ} {b : ℕ}
    (hlow : before r s x < b) (hhigh : b < upTo r s x) :
    ∃ u y z v, s = u ++ y :: z :: v ∧ u.length + 1 = b ∧ r y z ∧ r z y := by
  have hlen : b < s.length := lt_of_lt_of_le hhigh List.countP_le_length
  have hfirst : b - 1 < s.length := by omega
  have hnext : b - 1 + 1 < s.length := by omega
  have hdrop : s.drop (b - 1) = s[b - 1] :: s[b - 1 + 1] :: s.drop (b - 1 + 1 + 1) := by
    rw [List.drop_eq_getElem_cons hfirst, List.drop_eq_getElem_cons hnext]
  have heq : s = s.take (b - 1) ++ s[b - 1] :: s[b - 1 + 1] :: s.drop (b - 1 + 1 + 1) := by
    rw [← hdrop, List.take_append_drop]
  obtain ⟨u, y, z, v, heq, hu⟩ : ∃ u y z v, s = u ++ y :: z :: v ∧ u.length + 1 = b :=
    ⟨_, _, _, _, heq, by rw [List.length_take]; omega⟩
  have hcons : u ++ y :: z :: v = (u ++ [y]) ++ z :: v := by simp
  subst heq
  obtain ⟨hxy, hyx⟩ : r x y ∧ r y x := ties_of_place hs (by omega) (by omega)
  rw [hcons] at hs hlow hhigh
  have hu' : (u ++ [y]).length = b := by rw [List.length_append, List.length_singleton, hu]
  obtain ⟨hxz, hzx⟩ : r x z ∧ r z x := ties_of_place hs (by omega) (by omega)
  exact ⟨u, y, z, v, rfl, hu, trans_of r hyx hxz, trans_of r hzx hxy⟩

omit [DecidableRel r] in
/-- Neighbours that tie may change places. -/
theorem Arranged.swap {u v : List ρ} {y z : ρ} (h : Arranged r rows (u ++ y :: z :: v))
    (hzy : r z y) : Arranged r rows (u ++ z :: y :: v) := by
  obtain ⟨hperm, hs⟩ := h
  refine ⟨((List.Perm.swap y z v).append_left u).trans hperm, ?_⟩
  rw [List.pairwise_append, List.pairwise_cons, List.pairwise_cons] at hs ⊢
  obtain ⟨hu, ⟨hy, hz, hv⟩, huv⟩ := hs
  refine ⟨hu, ⟨?_, fun a ha => hy a (List.mem_cons_of_mem _ ha), hv⟩, ?_⟩
  · rw [List.forall_mem_cons]
    exact ⟨hzy, hz⟩
  · intro a ha b hb
    refine huv a ha b ?_
    rw [List.mem_cons, List.mem_cons] at hb ⊢
    tauto

omit [DecidableRel r] in
theorem mem_page {b k : ℕ} {y : ρ} (h : s[b + k]? = some y) (hk : k < l) :
    y ∈ (s.drop b).take l := by
  refine List.mem_of_getElem? (i := k) ?_
  rw [List.getElem?_take_of_lt hk, List.getElem?_drop]
  exact h

omit [DecidableRel r] in
/-- Pages that list every row once share none. -/
theorem not_mem_next {f : ℕ → List ρ} {n i : ℕ} {y : ρ} (hnd : ((List.range n).flatMap f).Nodup)
    (hi : i + 1 < n) (h : y ∈ f i) : y ∉ f (i + 1) := by
  have hdisjoint := (List.nodup_flatMap.mp hnd).2
  rw [List.pairwise_iff_getElem] at hdisjoint
  have hpair := hdisjoint i (i + 1) (by simpa using Nat.lt_of_succ_lt hi) (by simpa using hi)
    (Nat.lt_succ_self i)
  rw [List.getElem_range, List.getElem_range] at hpair
  exact hpair h

/-- **Pages, exactly.**  The pages of a result list every row exactly once, whatever order each
statement chooses for the rows that tie, exactly if no tie goes across two pages. -/
theorem pages_perm_iff [IsTrans ρ r] [Std.Total r] (hl : 0 < l) (hnd : rows.Nodup) :
    (∀ arr : ℕ → List ρ, (∀ i, Arranged r rows (arr i)) →
      (pages arr l (pageCount rows.length l)).Perm rows) ↔ NoTieAcross r rows l := by
  have hrefl : Std.Refl r := ⟨fun a => (total_of r a a).elim id id⟩
  constructor
  · intro h x hx i ⟨hlow, hhigh⟩
    have hs : Arranged r rows (rows.insertionSort r) :=
      ⟨List.perm_insertionSort r rows, List.pairwise_insertionSort r rows⟩
    rw [← before_perm hs.perm] at hlow
    rw [← upTo_perm hs.perm] at hhigh
    obtain ⟨u, y, z, v, heq, hu, -, hzy⟩ := exists_tied_neighbours hs.sorted hlow hhigh
    have hend : i * l < rows.length := by
      rw [← hs.perm.length_eq]
      exact lt_of_lt_of_le hhigh List.countP_le_length
    rw [heq] at hs
    -- The statement of page `i` lists the two neighbours the other way round.
    cases i with
    | zero => omega
    | succ j =>
      have harr : ∀ k, Arranged r rows
          (if k = j + 1 then u ++ z :: y :: v else u ++ y :: z :: v) := by
        intro k
        split
        · exact hs.swap hzy
        · exact hs
      have hnodup := (h _ harr).nodup_iff.mpr hnd
      rw [Nat.succ_mul] at hu
      refine not_mem_next (y := y) hnodup ((lt_pageCount hl).mpr hend) ?_ ?_
      · dsimp only
        rw [if_neg (Nat.succ_ne_self j).symm]
        refine mem_page (k := l - 1) ?_ (by omega)
        rw [show j * l + (l - 1) = u.length by omega]
        simp
      · dsimp only
        rw [if_pos rfl]
        refine mem_page (k := 0) ?_ hl
        rw [Nat.succ_mul, ← hu, List.getElem?_append_right (by omega)]
        simp
  · intro hno arr harr
    have hsame : (pages arr l (pageCount rows.length l)).Perm
        (pages (fun _ => arr 0) l (pageCount rows.length l)) :=
      List.Perm.flatMap_left _ fun i _ => page_perm (harr i) (harr 0) hno i
    refine hsame.trans ?_
    rw [pages_const, List.take_of_length_le]
    · exact (harr 0).perm
    · rw [(harr 0).perm.length_eq]
      exact le_pageCount_mul hl

/-! ### A bound on the offset -/

/-- Pages whose offset is a function of their number. -/
def pagesAt (arr : ℕ → List ρ) (off : ℕ → ℕ) (l n : ℕ) : List ρ :=
  (List.range n).flatMap fun i => ((arr i).drop (off i)).take l

/-- **Pages with a bounded offset, exactly.**  The rows must also end with the page that the bound
falls in. -/
theorem pagesAt_perm_iff [IsTrans ρ r] [Std.Total r] {off : ℕ → ℕ} {cap : ℕ} (hl : 0 < l)
    (hnd : rows.Nodup) (hoff : ∀ i, i * l ≤ cap + l → off i = min (i * l) cap) :
    (∀ arr : ℕ → List ρ, (∀ i, Arranged r rows (arr i)) →
      (pagesAt arr off l (pageCount rows.length l)).Perm rows) ↔
      rows.length ≤ (cap / l + 1) * l ∧ NoTieAcross r rows l := by
  have hmul : cap / l * l ≤ cap := Nat.div_mul_le_self cap l
  have hrest : cap < cap / l * l + l := Nat.lt_div_mul_add hl
  -- Within the bound the offsets are those of the pages.
  have hpages : rows.length ≤ (cap / l + 1) * l → ∀ arr : ℕ → List ρ,
      pagesAt arr off l (pageCount rows.length l) = pages arr l (pageCount rows.length l) := by
    intro hlen arr
    refine List.flatMap_congr fun i hi => ?_
    have hi : i * l < (cap / l + 1) * l :=
      lt_of_lt_of_le ((lt_pageCount hl).mp (List.mem_range.mp hi)) hlen
    have hi : i ≤ cap / l := Nat.lt_succ_iff.mp (Nat.lt_of_mul_lt_mul_right hi)
    have hle : i * l ≤ cap := le_trans (Nat.mul_le_mul_right l hi) hmul
    rw [hoff i (by omega), Nat.min_eq_left hle]
  constructor
  · intro h
    have hlen : rows.length ≤ (cap / l + 1) * l := by
      by_contra hlong
      rw [not_le] at hlong
      have hs : Arranged r rows (rows.insertionSort r) :=
        ⟨List.perm_insertionSort r rows, List.pairwise_insertionSort r rows⟩
      have hnodup := (h _ fun _ => hs).nodup_iff.mpr hnd
      rw [Nat.succ_mul] at hlong
      have hcap : cap < (rows.insertionSort r).length := by
        rw [hs.perm.length_eq]
        omega
      refine not_mem_next (i := cap / l) (y := (rows.insertionSort r)[cap]) hnodup ?_ ?_ ?_
      · rw [lt_pageCount hl, Nat.succ_mul]
        exact hlong
      · dsimp only
        rw [hoff _ (by omega), Nat.min_eq_left hmul]
        refine mem_page (k := cap - cap / l * l) ?_ (by omega)
        rw [Nat.add_sub_cancel' hmul]
        exact List.getElem?_eq_getElem hcap
      · dsimp only
        rw [hoff _ (by rw [Nat.succ_mul]; omega), Nat.min_eq_right (by rw [Nat.succ_mul]; omega)]
        exact mem_page (k := 0) (List.getElem?_eq_getElem hcap) hl
    refine ⟨hlen, (pages_perm_iff hl hnd).mp fun arr harr => ?_⟩
    rw [← hpages hlen arr]
    exact h arr harr
  · rintro ⟨hlen, hno⟩ arr harr
    rw [hpages hlen arr]
    exact (pages_perm_iff hl hnd).mpr hno arr harr

end Places

end Paging
