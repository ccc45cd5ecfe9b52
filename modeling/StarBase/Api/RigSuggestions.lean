import Mathlib.Data.Prod.Lex
import StarBase.Api.Equipment
import StarBase.Lib.Intervals
import StarBase.Lib.OrderBy
import StarBase.Lib.Rounding

/-!
# Rig suggestions

The focal lengths of each camera's frames are cut into clusters, and each cluster that no rig covers is
suggested as a rig, with some room on both sides.

* `focalRows`, `clusters`, `rigSuggestions` — the query and the two loops, in doubles;
* `clusters_rows` — **PROVED**: the loops cut the rows in their order;
* `suggestMin_le`, `le_suggestMax` — **PROVED**: the room is on both sides;
* `rigSuggestions_apart_iff` — **PROVED**: the suggestions overlap nothing exactly if whole numbers fit
  between the ends of successive ones and the ends of the active rigs.

The model of the camera and the other lists of the answer are left out.
-/

namespace StarBase.Api

open Relational Extract Rounding Intervals

section Server

variable [Host]

/-! ### The query -/

/-- A row of the query; the focal length is in tenths of a millimetre. -/
structure FocalRow where
  cameraId : ℕ
  tenths : Int
  frames : ℕ
  deriving DecidableEq

/-- What a `DECIMAL(7,1)` column holds, in tenths. -/
def columnTenths (q : ℚ) : Int := roundHalfAway (sixDecimals q * 10)

/-- `(camera_id, focal_len_mm)` of a frame that has both. -/
def cameraAndFocal (f : FrameRow) : Option (ℕ ×ₗ Int) :=
  match f.equip.cameraId, f.cols.focalLenMm with
  | some cam, some (.fin q) => some (toLex (cam, columnTenths q))
  | _, _ => none

/-- `JOIN cameras .. GROUP BY f.camera_id, f.focal_len_mm ORDER BY f.camera_id, f.focal_len_mm`. -/
def focalRows (db : EquipDb) : List FocalRow :=
  let keys := (db.frames.rows.filterMap cameraAndFocal).filter fun k => db.cameraIds.contains (ofLex k).1
  (orderBy id keys.dedup).map fun k =>
    { cameraId := (ofLex k).1
      tenths := (ofLex k).2
      frames := keys.count k }

/-- `std::stod` of the column. -/
def FocalRow.focal (r : FocalRow) : ℚ := binary64 (r.tenths / 10)

/-! ### The clusters -/

/-- The inner loop: the rows of the camera as long as each is within 2 % of the one before, and the rows
left. -/
def takeRun (cam : ℕ) (hi : ℚ) : List FocalRow → List FocalRow × List FocalRow
  | [] => ([], [])
  | r :: rest =>
    if r.cameraId = cam ∧ r.focal ≤ binary64 (hi * binary64 (102 / 100)) then
      (r :: (takeRun cam r.focal rest).1, (takeRun cam r.focal rest).2)
    else ([], r :: rest)

structure FocalCluster where
  first : FocalRow
  taken : List FocalRow
  deriving DecidableEq

namespace FocalCluster

variable (c : FocalCluster)

def rows : List FocalRow := c.first :: c.taken

def cameraId : ℕ := c.first.cameraId

def lo : ℚ := c.first.focal

def last : FocalRow := c.rows.getLast (List.cons_ne_nil _ _)

def hi : ℚ := c.last.focal

end FocalCluster

/-- The outer loop, of at most `n` rounds. -/
def clusterLoop : ℕ → List FocalRow → List FocalCluster
  | 0, _ => []
  | _, [] => []
  | n + 1, r :: rest =>
    ⟨r, (takeRun r.cameraId r.focal rest).1⟩ :: clusterLoop n (takeRun r.cameraId r.focal rest).2

def clusters (rows : List FocalRow) : List FocalCluster := clusterLoop rows.length rows

/-! ### The suggestions -/

/-- 1.5 % of a focal length, or 1 mm if that is more. -/
def room (x : ℚ) : ℚ := max (binary64 (x * binary64 (15 / 1000))) 1

def narrowed (lo : ℚ) : ℚ := binary64 (lo - room lo)

def widened (hi : ℚ) : ℚ := binary64 (hi + room hi)

structure RigSuggestion where
  cameraId : ℕ
  focalMin : ℚ
  focalMax : ℚ
  frames : ℕ
  suggestMin : Int
  suggestMax : Int
  deriving DecidableEq

def FocalCluster.suggestion (c : FocalCluster) : RigSuggestion where
  cameraId := c.cameraId
  focalMin := c.lo
  focalMax := c.hi
  frames := (c.rows.map FocalRow.frames).sum
  suggestMin := ⌊narrowed c.lo⌋
  suggestMax := ⌈widened c.hi⌉

/-- Some rig of the camera, active or not, reaches into the cluster. -/
def covered (db : EquipDb) (c : FocalCluster) : Bool :=
  db.rigs.rows.any fun r => r.cameraId = c.cameraId &&
    !(decide (c.hi < binary64 r.focalMinMm) || decide (binary64 r.focalMaxMm < c.lo))

/-- The clusters that are suggested. -/
def uncovered (db : EquipDb) : List FocalCluster := (clusters (focalRows db)).filter fun c => !covered db c

def rigSuggestions (db : EquipDb) : List RigSuggestion := (uncovered db).map FocalCluster.suggestion

/-! ### The clusters cut the rows -/

omit [Host] in
theorem takeRun_append (cam : ℕ) (hi : ℚ) (rows : List FocalRow) :
    (takeRun cam hi rows).1 ++ (takeRun cam hi rows).2 = rows ∧ ∀ r ∈ (takeRun cam hi rows).1, r.cameraId = cam := by
  induction rows generalizing hi with
  | nil => exact ⟨rfl, nofun⟩
  | cons r rest ih =>
    unfold takeRun
    split
    · next h =>
      obtain ⟨happend, hcam⟩ := ih r.focal
      exact ⟨congrArg _ happend, List.forall_mem_cons.mpr ⟨h.1, hcam⟩⟩
    · exact ⟨rfl, nofun⟩

omit [Host] in
theorem clusterLoop_rows {n : ℕ} {rows : List FocalRow} (h : rows.length ≤ n) :
    ((clusterLoop n rows).map FocalCluster.rows).flatten = rows ∧
      ∀ c ∈ clusterLoop n rows, ∀ r ∈ c.rows, r.cameraId = c.cameraId := by
  induction n generalizing rows with
  | zero =>
    rw [List.length_eq_zero_iff.mp (Nat.le_zero.mp h)]
    exact ⟨rfl, nofun⟩
  | succ n ih =>
    cases rows with
    | nil => exact ⟨rfl, nofun⟩
    | cons r rest =>
      obtain ⟨happend, hcam⟩ := takeRun_append r.cameraId r.focal rest
      have hlen := congrArg List.length happend
      rw [List.length_append] at hlen
      rw [List.length_cons] at h
      obtain ⟨hflat, hrest⟩ := @ih (takeRun r.cameraId r.focal rest).2 (by omega)
      unfold clusterLoop
      refine ⟨?_, List.forall_mem_cons.mpr ⟨List.forall_mem_cons.mpr ⟨rfl, hcam⟩, hrest⟩⟩
      rw [List.map_cons, List.flatten_cons, hflat]
      exact congrArg _ happend

omit [Host] in
theorem clusters_rows (rows : List FocalRow) :
    ((clusters rows).map FocalCluster.rows).flatten = rows ∧
      ∀ c ∈ clusters rows, ∀ r ∈ c.rows, r.cameraId = c.cameraId :=
  clusterLoop_rows le_rfl

/-! ### The rows in order -/

/-- In the order of the query. -/
def BeforeRow (a b : FocalRow) : Prop :=
  a.cameraId < b.cameraId ∨ a.cameraId = b.cameraId ∧ a.tenths < b.tenths

/-- What a `DECIMAL(7,1)` column can hold. -/
def InColumn (r : FocalRow) : Prop := |r.tenths| < 10 ^ 7

theorem focalRows_sorted (db : EquipDb) : (focalRows db).Pairwise BeforeRow := by
  unfold focalRows
  dsimp only
  rw [List.pairwise_map]
  have hsorted := pairwise_orderBy id ((db.frames.rows.filterMap cameraAndFocal).filter
    fun k => db.cameraIds.contains (ofLex k).1).dedup
  have hnodup := (perm_orderBy id ((db.frames.rows.filterMap cameraAndFocal).filter
    fun k => db.cameraIds.contains (ofLex k).1).dedup).nodup_iff.mpr (List.nodup_dedup _)
  refine (hsorted.and hnodup).imp fun {a b} h => ?_
  have hlt : a < b := lt_of_le_of_ne h.1 h.2
  exact Prod.Lex.lt_iff.mp hlt

theorem focalRows_inColumn {db : EquipDb}
    (hfits : ∀ f ∈ db.frames.rows, decimalFits 7 1 f.cols.focalLenMm = true) :
    ∀ r ∈ focalRows db, InColumn r := by
  intro r hr
  obtain ⟨k, hk, rfl⟩ := List.mem_map.mp hr
  obtain ⟨f, hf, hkey⟩ := List.mem_filterMap.mp
    (List.mem_filter.mp (List.mem_dedup.mp (mem_orderBy.mp hk))).1
  have hfit := hfits f hf
  unfold cameraAndFocal at hkey
  split at hkey
  · next cam q _ hq =>
    cases hkey
    rw [hq] at hfit
    have hbound := of_decide_eq_true hfit
    rw [pow_one] at hbound
    exact hbound
  · cases hkey

/-! ### The room in doubles -/

omit [Host] in
/-- In the range of the columns a double is within a hundredth of its value. -/
theorem binary64_near {x : ℚ} (h : |x| ≤ 2000000) : |binary64 x - x| ≤ 1 / 100 := by
  refine (abs_binary64_sub_le x).trans ?_
  have hquot : |x| / 2 ^ 52 ≤ 2000000 / 2 ^ 52 := div_le_div_of_nonneg_right h (by positivity)
  have hleast := leastDouble_le
  norm_num at hquot hleast ⊢
  linarith

omit [Host] in
theorem binary64_ratio : |binary64 (15 / 1000)| ≤ 1 / 50 := by
  have h := abs_binary64_sub_le (15 / 1000)
  rw [abs_of_pos (by norm_num : (0 : ℚ) < 15 / 1000)] at h
  have hsum : |binary64 (15 / 1000)| ≤ |binary64 (15 / 1000) - 15 / 1000| + |15 / 1000| := by
    have htri := abs_add_le (binary64 (15 / 1000) - 15 / 1000) (15 / 1000)
    rw [sub_add_cancel] at htri
    exact htri
  rw [abs_of_pos (by norm_num : (0 : ℚ) < 15 / 1000)] at hsum
  refine hsum.trans ((add_le_add_left h _).trans ?_)
  have hleast := leastDouble_le
  norm_num at hleast ⊢
  linarith

omit [Host] in
/-- The room of a focal length the column can hold. -/
theorem room_bounds {x : ℚ} (h : |x| ≤ 1000001) : 1 ≤ room x ∧ room x ≤ 30000 := by
  have hmul : |x * binary64 (15 / 1000)| ≤ 1000001 * (1 / 50) := by
    rw [abs_mul]
    exact mul_le_mul h binary64_ratio (abs_nonneg _) (by norm_num)
  have hnear := abs_le.mp (binary64_near (hmul.trans (by norm_num)))
  have hupper := (le_abs_self (x * binary64 (15 / 1000))).trans hmul
  unfold room
  refine ⟨le_max_right _ _, max_le ?_ (by norm_num)⟩
  linarith [hnear.2]

omit [Host] in
theorem narrowed_le {x : ℚ} (h : |x| ≤ 1000001) : narrowed x ≤ x - 9 / 10 := by
  obtain ⟨hlow, hhigh⟩ := room_bounds h
  obtain ⟨hx₁, hx₂⟩ := abs_le.mp h
  have hsmall : |x - room x| ≤ 2000000 := abs_le.mpr ⟨by linarith, by linarith⟩
  have hnear := abs_le.mp (binary64_near hsmall)
  unfold narrowed
  linarith [hnear.2]

omit [Host] in
theorem le_widened {x : ℚ} (h : |x| ≤ 1000001) : x + 9 / 10 ≤ widened x := by
  obtain ⟨hlow, hhigh⟩ := room_bounds h
  obtain ⟨hx₁, hx₂⟩ := abs_le.mp h
  have hsmall : |x + room x| ≤ 2000000 := abs_le.mpr ⟨by linarith, by linarith⟩
  have hnear := abs_le.mp (binary64_near hsmall)
  unfold widened
  linarith [hnear.1]

omit [Host] in
/-- The double of a column is within a hundredth of it, and in its range. -/
theorem InColumn.focal_near {r : FocalRow} (h : InColumn r) :
    |r.focal - r.tenths / 10| ≤ 1 / 100 ∧ |r.focal| ≤ 1000001 := by
  have hcast : |(r.tenths : ℚ)| ≤ 10 ^ 7 := by
    have hint : |r.tenths| ≤ 10 ^ 7 := le_of_lt h
    exact_mod_cast hint
  have hten : |(r.tenths : ℚ) / 10| ≤ 1000000 := by
    rw [abs_div, abs_of_pos (by norm_num : (0 : ℚ) < 10), div_le_iff₀ (by norm_num)]
    exact hcast.trans (by norm_num)
  have hnear := binary64_near (hten.trans (by norm_num))
  refine ⟨hnear, ?_⟩
  unfold FocalRow.focal
  obtain ⟨h₁, h₂⟩ := abs_le.mp hnear
  obtain ⟨h₃, h₄⟩ := abs_le.mp hten
  exact abs_le.mpr ⟨by linarith, by linarith⟩

namespace FocalCluster

variable {c : FocalCluster}

omit [Host] in
theorem last_mem : c.last ∈ c.rows := List.getLast_mem _

omit [Host] in
/-- The room is below the first focal length. -/
theorem suggestMin_le (h : InColumn c.first) : (c.suggestion.suggestMin : ℚ) ≤ c.first.tenths / 10 := by
  obtain ⟨hnear, hrange⟩ := h.focal_near
  have hlo : narrowed c.lo ≤ c.first.focal - 9 / 10 := narrowed_le hrange
  have hfloor : (c.suggestion.suggestMin : ℚ) ≤ narrowed c.lo := Int.floor_le _
  linarith [(abs_le.mp hnear).2]

omit [Host] in
/-- And above the last one. -/
theorem le_suggestMax (h : InColumn c.last) : (c.last.tenths : ℚ) / 10 ≤ c.suggestion.suggestMax := by
  obtain ⟨hnear, hrange⟩ := h.focal_near
  have hhi : c.last.focal + 9 / 10 ≤ widened c.hi := le_widened hrange
  have hceil : widened c.hi ≤ (c.suggestion.suggestMax : ℚ) := Int.le_ceil _
  linarith [(abs_le.mp hnear).1]

omit [Host] in
/-- The focal lengths of a cluster of one camera lie between its first and its last. -/
theorem between_of_sorted (hsorted : c.rows.Pairwise BeforeRow) (hcam : ∀ r ∈ c.rows, r.cameraId = c.cameraId)
    {r : FocalRow} (hr : r ∈ c.rows) : c.first.tenths ≤ r.tenths ∧ r.tenths ≤ c.last.tenths := by
  have hle : ∀ a ∈ c.rows, ∀ b ∈ c.rows, BeforeRow a b → a.tenths ≤ b.tenths := by
    rintro a ha b hb (hlt | ⟨-, hlt⟩)
    · rw [hcam a ha, hcam b hb] at hlt
      exact absurd hlt (lt_irrefl _)
    · exact hlt.le
  constructor
  · rcases List.mem_cons.mp hr with rfl | htaken
    · exact le_rfl
    · exact hle c.first List.mem_cons_self r hr ((List.pairwise_cons.mp hsorted).1 r htaken)
  · have hsplit : c.rows.dropLast ++ [c.last] = c.rows := List.dropLast_concat_getLast _
    rw [← hsplit] at hr hsorted
    rcases List.mem_append.mp hr with hinit | hlast
    · have hbefore := (List.pairwise_append.mp hsorted).2.2 r hinit c.last List.mem_cons_self
      exact hle r (List.dropLast_subset _ hinit) c.last last_mem hbefore
    · rw [List.mem_singleton.mp hlast]

end FocalCluster

/-! ### What overlaps -/

/-- The range of a suggestion. -/
def RigSuggestion.range (s : RigSuggestion) : Set ℚ := Set.Icc (s.suggestMin : ℚ) s.suggestMax

/-- The suggestions of a camera are pairwise disjoint, each has the focal lengths of its cluster, and none
meets an active rig of the camera. -/
structure SuggestionsApart (db : EquipDb) : Prop where
  disjoint : (rigSuggestions db).Pairwise fun s t => s.cameraId = t.cameraId → Disjoint s.range t.range
  contains : ∀ c ∈ uncovered db, ∀ r ∈ c.rows, (r.tenths : ℚ) / 10 ∈ c.suggestion.range
  rigs : ∀ s ∈ rigSuggestions db, ∀ r ∈ db.rigs.rows, r.active = true → r.cameraId = s.cameraId →
    Disjoint s.range (Set.Icc r.focalMinMm r.focalMaxMm)

/-- Two whole numbers that follow each other fit between the widened end of one cluster and the narrowed
start of another. -/
def RoomBetween (a b : FocalCluster) : Prop :=
  a.cameraId = b.cameraId → ∃ n : ℤ, widened a.hi ≤ n ∧ (n : ℚ) + 1 ≤ narrowed b.lo

/-- A whole number fits between a rig and a cluster's end on one side. -/
def ClearOf (r : Rig) (c : FocalCluster) : Prop :=
  (∃ n : ℤ, widened c.hi ≤ n ∧ (n : ℚ) < r.focalMinMm) ∨ ∃ n : ℤ, r.focalMaxMm < n ∧ (n : ℚ) ≤ narrowed c.lo

/-- What the loops make of the rows. -/
structure Ordered (c : FocalCluster) : Prop where
  sorted : c.rows.Pairwise BeforeRow
  camera : ∀ r ∈ c.rows, r.cameraId = c.cameraId
  inColumn : ∀ r ∈ c.rows, InColumn r

omit [Host] in
theorem Ordered.le {c : FocalCluster} (h : Ordered c) :
    (c.suggestion.suggestMin : ℚ) ≤ c.first.tenths / 10 ∧ (c.last.tenths : ℚ) / 10 ≤ c.suggestion.suggestMax :=
  ⟨FocalCluster.suggestMin_le (h.inColumn _ List.mem_cons_self),
    FocalCluster.le_suggestMax (h.inColumn _ FocalCluster.last_mem)⟩

omit [Host] in
theorem Ordered.contains {c : FocalCluster} (h : Ordered c) {r : FocalRow} (hr : r ∈ c.rows) :
    (r.tenths : ℚ) / 10 ∈ c.suggestion.range := by
  obtain ⟨hmin, hmax⟩ := h.le
  obtain ⟨hfirst, hlast⟩ := FocalCluster.between_of_sorted h.sorted h.camera hr
  have hfirst' : (c.first.tenths : ℚ) / 10 ≤ r.tenths / 10 :=
    div_le_div_of_nonneg_right (by exact_mod_cast hfirst) (by norm_num)
  have hlast' : (r.tenths : ℚ) / 10 ≤ c.last.tenths / 10 :=
    div_le_div_of_nonneg_right (by exact_mod_cast hlast) (by norm_num)
  exact ⟨hmin.trans hfirst', hlast'.trans hmax⟩

omit [Host] in
theorem Ordered.nonempty {c : FocalCluster} (h : Ordered c) :
    (c.suggestion.suggestMin : ℚ) ≤ c.suggestion.suggestMax :=
  (h.contains List.mem_cons_self).1.trans (h.contains List.mem_cons_self).2

section Uncovered

variable {db : EquipDb}

theorem uncovered_inOrder (hfits : ∀ f ∈ db.frames.rows, decimalFits 7 1 f.cols.focalLenMm = true) :
    ∀ c ∈ uncovered db, Ordered c := by
  intro c hc
  have hmem := List.mem_of_mem_filter hc
  obtain ⟨hflat, hcam⟩ := clusters_rows (focalRows db)
  have hsorted := focalRows_sorted db
  rw [← hflat] at hsorted
  refine ⟨(List.pairwise_flatten.mp hsorted).1 c.rows (List.mem_map_of_mem hmem), hcam c hmem,
    fun r hr => focalRows_inColumn hfits r ?_⟩
  rw [← hflat]
  exact List.mem_flatten.mpr ⟨c.rows, List.mem_map_of_mem hmem, hr⟩

/-- The suggested clusters are in the order of their cameras, and none begins behind a later one of its
camera. -/
theorem uncovered_inLine (hfits : ∀ f ∈ db.frames.rows, decimalFits 7 1 f.cols.focalLenMm = true) :
    (uncovered db).Pairwise (InLine FocalCluster.cameraId (fun c => (c.suggestion.suggestMin : ℚ))
      fun c => (c.suggestion.suggestMax : ℚ)) := by
  obtain ⟨hflat, hcam⟩ := clusters_rows (focalRows db)
  have hsorted := focalRows_sorted db
  rw [← hflat] at hsorted
  have hpair := List.pairwise_map.mp (List.pairwise_flatten.mp hsorted).2
  refine List.Pairwise.imp_of_mem (fun {a b} ha hb hab => ?_) (hpair.filter _)
  have hfirst := hab a.first List.mem_cons_self b.first List.mem_cons_self
  have horderA := uncovered_inOrder hfits a ha
  have horderB := uncovered_inOrder hfits b hb
  refine ⟨?_, fun hkey => ?_⟩
  · rcases hfirst with hlt | ⟨heq, -⟩
    · exact hlt.le
    · exact heq.le
  · have hlt : a.first.tenths < b.first.tenths := by
      rcases hfirst with hcamera | ⟨-, hlt⟩
      · exact absurd hkey hcamera.ne
      · exact hlt
    have hlast := (FocalCluster.between_of_sorted horderB.sorted horderB.camera List.mem_cons_self).2
    have hdiv : (a.first.tenths : ℚ) / 10 ≤ b.last.tenths / 10 :=
      div_le_div_of_nonneg_right (by exact_mod_cast hlt.le.trans hlast) (by norm_num)
    exact horderA.le.1.trans (hdiv.trans horderB.le.2)

omit [Host] in
theorem before_iff (a b : FocalCluster) :
    Before FocalCluster.cameraId (fun c => (c.suggestion.suggestMin : ℚ))
      (fun c => (c.suggestion.suggestMax : ℚ)) a b ↔ RoomBetween a b := by
  refine imp_congr Iff.rfl ?_
  show ((⌈widened a.hi⌉ : ℤ) : ℚ) < ((⌊narrowed b.lo⌋ : ℤ) : ℚ) ↔ _
  rw [Int.cast_lt]
  exact ceil_lt_floor_iff

omit [Host] in
theorem clearOf_iff (r : Rig) (c : FocalCluster) :
    ((c.suggestion.suggestMax : ℚ) < r.focalMinMm ∨ r.focalMaxMm < c.suggestion.suggestMin) ↔ ClearOf r c := by
  refine or_congr ⟨fun h => ⟨_, Int.le_ceil _, h⟩, ?_⟩ ⟨fun h => ⟨_, h, Int.floor_le _⟩, ?_⟩
  · rintro ⟨n, hn, hlt⟩
    have hceil : c.suggestion.suggestMax ≤ n := Int.ceil_le.mpr hn
    exact lt_of_le_of_lt (by exact_mod_cast hceil) hlt
  · rintro ⟨n, hlt, hn⟩
    have hfloor : n ≤ c.suggestion.suggestMin := Int.le_floor.mpr hn
    exact lt_of_lt_of_le hlt (by exact_mod_cast hfloor)

end Uncovered

/-- **PROVED: when the suggested rigs overlap nothing.** Exactly if there is room between each suggested
cluster and the next one of its camera, and each active rig of its camera, if its range is not empty, is
clear of it. -/
theorem rigSuggestions_apart_iff (db : EquipDb)
    (hfits : ∀ f ∈ db.frames.rows, decimalFits 7 1 f.cols.focalLenMm = true) :
    SuggestionsApart db ↔
      (uncovered db).IsChain RoomBetween ∧
        ∀ c ∈ uncovered db, ∀ r ∈ db.rigs.rows, r.active = true → r.cameraId = c.cameraId →
          r.focalMinMm ≤ r.focalMaxMm → ClearOf r c := by
  have horder := uncovered_inOrder hfits
  have hdisjoint := pairwise_disjoint_iff (fun c hc => (horder c hc).nonempty) (uncovered_inLine hfits)
  have hchain : (uncovered db).IsChain (Before FocalCluster.cameraId
      (fun c => (c.suggestion.suggestMin : ℚ)) fun c => (c.suggestion.suggestMax : ℚ)) ↔
      (uncovered db).IsChain RoomBetween :=
    ⟨fun h => h.imp fun a b => (before_iff a b).mp, fun h => h.imp fun a b => (before_iff a b).mpr⟩
  constructor
  · rintro ⟨hd, -, hrigs⟩
    refine ⟨hchain.mp (hdisjoint.mp (List.pairwise_map.mp hd)), fun c hc r hr hactive hcamera hle => ?_⟩
    have hclear := hrigs c.suggestion (List.mem_map_of_mem hc) r hr hactive hcamera
    exact (clearOf_iff r c).mp ((disjoint_Icc_iff (horder c hc).nonempty hle).mp hclear)
  · rintro ⟨hroom, hclear⟩
    refine ⟨List.pairwise_map.mpr (hdisjoint.mpr (hchain.mpr hroom)), fun c hc r hr => (horder c hc).contains hr,
      fun s hs r hr hactive hcamera => ?_⟩
    obtain ⟨c, hc, rfl⟩ := List.mem_map.mp hs
    by_cases hle : r.focalMinMm ≤ r.focalMaxMm
    · exact (disjoint_Icc_iff (horder c hc).nonempty hle).mpr
        ((clearOf_iff r c).mpr (hclear c hc r hr hactive hcamera hle))
    · rw [Set.Icc_eq_empty hle]
      exact Set.disjoint_empty _

end Server

/-! ### Two focal lengths of one camera -/

section Two

attribute [local instance] plainHost

def focalFrame (fileId : ℕ) (focal : ℚ) : RowMaker frameKeying (fileId, 0) :=
  newFrame fileId ⟨0, true, 16, 2, 1, 1, []⟩ { focalLenMm := some (.fin focal) } { cameraId := some 1 }

theorem no_flatSets : ∀ s ∈ (Table.empty flatSetKeying).rows, s.rigId ∈ (Table.empty rigKeying).ids := nofun

theorem no_pins : ∀ p ∈ ([] : List Pin), p.flatSetId ∈ (Table.empty flatSetKeying).ids ∧
    ∀ r ∈ p.scope.rig, r ∈ (Table.empty rigKeying).ids := nofun

/-- A camera with frames at two focal lengths, and no rig. -/
def twoFocals (first second : ℚ) : EquipDb where
  frames := ((Table.empty frameKeying).upsert _ (focalFrame 1 first) (setFlatSet none)).upsert _
    (focalFrame 2 second) (setFlatSet none)
  rigs := Table.empty rigKeying
  flatSets := Table.empty flatSetKeying
  pins := []
  nextPin := 1
  telescopes := Table.empty nameKeying
  cameraIds := [1]
  siteIds := []
  savedQueryIds := []
  frames_fk := by
    intro f hf r hr
    have hnone : f.equip.rigId = none := by
      have hall : ∀ g ∈ [(focalFrame 1 first).make 1, (focalFrame 2 second).make 2],
          g.equip.rigId = none := List.forall_mem_cons.mpr ⟨rfl, List.forall_mem_singleton.mpr rfl⟩
      exact hall f hf
    rw [hnone] at hr
    cases hr
  flatSets_fk := no_flatSets
  pins_fk := no_pins

theorem near_suggestions : rigSuggestions (twoFocals 500 511) =
    [⟨1, 500, 500, 1, 492, 508⟩, ⟨1, 511, 511, 1, 503, 519⟩] := by decide +kernel

/-- A fifth apart, there is room. -/
theorem rigSuggestions_apart_far : SuggestionsApart (twoFocals 500 600) := by
  refine (rigSuggestions_apart_iff _ (by decide +kernel)).mpr ⟨?_, nofun⟩
  have huncovered : uncovered (twoFocals 500 600) = [⟨⟨1, 5000, 1⟩, []⟩, ⟨⟨1, 6000, 1⟩, []⟩] := by
    decide +kernel
  rw [huncovered]
  refine List.isChain_pair.mpr fun _ => ⟨508, ?_, ?_⟩
  · decide +kernel
  · decide +kernel

/-- A little over 2 % apart, the suggestions overlap. -/
theorem rigSuggestions_overlap_near : ¬SuggestionsApart (twoFocals 500 511) := by
  intro h
  have hdisjoint := h.disjoint
  rw [near_suggestions] at hdisjoint
  have hpair := (List.pairwise_cons.mp hdisjoint).1 _ List.mem_cons_self rfl
  have hlow : (505 : ℚ) ∈ RigSuggestion.range ⟨1, 500, 500, 1, 492, 508⟩ := ⟨by norm_num, by norm_num⟩
  have hhigh : (505 : ℚ) ∈ RigSuggestion.range ⟨1, 511, 511, 1, 503, 519⟩ := ⟨by norm_num, by norm_num⟩
  exact Set.disjoint_left.mp hpair hlow hhigh

end Two

end StarBase.Api
