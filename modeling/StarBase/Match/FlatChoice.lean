import StarBase.Match.Ranking

/-!
# Which flat set a light gets

A pin binds a light to a flat set.  Without one, a light of a fixed rig should get the preferred set
among those whose explicit window covers its night, or, if there is none, among the sets without a
window that were captured by then.

* `newestKey` — the order of the flat set queries; `newest_eq_argmax` reads the first row as the
  greatest;
* `Rightful` — a set that the windows and the night allow;
* `stageSets`, `StageDecides` — the sets the query that decides looks at, and what has to hold of them;
* `WindowsDecide` — the condition on the sets' windows, capture nights and filters;
* `picksPreferred_iff` — **PROVED**: the pick is the preferred rightful set exactly if the windows
  decide;
* `pin_wins_iff` — **PROVED**: a pin overrides every other choice exactly if it is one of a rig and a
  night.
-/

namespace StarBase.Match

open Relational Extract Api

/-! ### The order of the flat set queries -/

section Newest

variable (instant : Str → Option Micros) (filtered : Bool)

def capturedAt (s : FlatSet) : WithBot Micros :=
  (s.capturedNight.bind instant).elim ⊥ WithBot.some

/-- A set of one filter before one for all, then the later night. -/
def preferKey (s : FlatSet) : Bool ×ₗ WithBot Micros :=
  toLex (filtered && s.filterId.isSome, capturedAt instant s)

/-- The same with the id, as the queries order. -/
def newestKey (s : FlatSet) : Bool ×ₗ WithBot Micros ×ₗ ℕ :=
  toLex (filtered && s.filterId.isSome, toLex (capturedAt instant s, s.id))

variable {instant filtered} {a b : FlatSet}

theorem newer_iff : newer instant filtered a b = true ↔
    newestKey instant filtered b < newestKey instant filtered a := by
  unfold newer newestKey capturedAt
  rw [Prod.Lex.toLex_lt_toLex, Prod.Lex.toLex_lt_toLex]
  by_cases hf : (filtered && a.filterId.isSome ≠ b.filterId.isSome) = true
  · rw [if_pos hf]
    obtain ⟨hf, hne⟩ := Bool.and_eq_true _ _ ▸ hf
    cases ha : a.filterId.isSome <;> cases hb : b.filterId.isSome <;> simp_all
  · have hsame : (filtered && b.filterId.isSome) = (filtered && a.filterId.isSome) := by
      cases filtered <;> simp_all
    rw [if_neg hf, hsame]
    dsimp only
    generalize a.capturedNight.bind instant = first
    generalize b.capturedNight.bind instant = second
    cases first with
    | none => cases second <;> simp
    | some x =>
      cases second with
      | none => simp
      | some y =>
        by_cases hxy : x = y
        · simp [hxy]
        · simp [hxy, Ne.symm hxy]

theorem preferKey_le_of_newestKey_le (h : newestKey instant filtered a ≤ newestKey instant filtered b) :
    preferKey instant filtered a ≤ preferKey instant filtered b := by
  unfold newestKey at h
  unfold preferKey
  rw [Prod.Lex.toLex_le_toLex] at h ⊢
  refine h.imp_right fun ⟨hf, h⟩ => ⟨hf, ?_⟩
  rw [Prod.Lex.toLex_le_toLex] at h
  exact h.elim le_of_lt fun h => h.1.le

theorem newest_eq_argmax (sets : List FlatSet) :
    newest instant filtered sets = sets.argmax (newestKey instant filtered) := by
  unfold newest List.argmax
  congr 1
  funext best s
  cases best with
  | none => rfl
  | some b => exact if_congr newer_iff rfl rfl

end Newest

/-! ### The parts of the choice -/

section Parts

variable [Host] {instant : Str → Option Micros} {db : EquipDb} {L : LightKey} {rigId : Int}

/-- The fitting set a pin of the rig and the night gives. -/
def pinnedSet (db : EquipDb) (L : LightKey) (rigId : Int) (night : Str) (p : Pin) : Option FlatSet :=
  match p.scope with
  | .rigNight r n =>
    if decide ((r : Int) = rigId) && n = night then
      (db.flatSets.rows.filter (fitsFilter L)).find? fun s => s.id = p.flatSetId
    else none
  | .savedQuery _ => none

def pinnedPick (db : EquipDb) (L : LightKey) (rigId : Int) : Option FlatSetPick :=
  L.sessionNight.bind fun night => (db.pins.findSome? (pinnedSet db L rigId night)).map
    (pickOf "pinned flat set '".toList ("' for ".toList ++ night))

/-- The sets of a rig that fit the light's filter. -/
def fittingSets (db : EquipDb) (L : LightKey) (rigId : Int) : List FlatSet :=
  (db.flatSets.rows.filter (fitsFilter L)).filter fun s => decide ((s.rigId : Int) = rigId)

/-- A set without a capture night counts as captured before. -/
def capturedBy (instant : Str → Option Micros) (night : Str) (s : FlatSet) : Bool :=
  s.capturedNight.all fun n => onOrBefore instant n night

def windowPick (instant : Str → Option Micros) (db : EquipDb) (L : LightKey) (rigId : Int)
    (night : Str) : Option FlatSetPick :=
  (newest instant L.filterId.isSome ((fittingSets db L rigId).filter (windowCovers instant night))).map
    (pickOf "flat set '".toList ("' (window covers ".toList ++ night ++ ")".toList))

def capturedPick (instant : Str → Option Micros) (db : EquipDb) (L : LightKey) (rigId : Int)
    (night : Str) : Option FlatSetPick :=
  (newest instant L.filterId.isSome ((fittingSets db L rigId).filter (capturedBy instant night))).map
    (pickOf "flat set '".toList ("' (newest on/before ".toList ++ night ++ ", fixed rig)".toList))

def activePick (db : EquipDb) (L : LightKey) (rig : Rig) : Option FlatSetPick :=
  rig.activeFlatSetId.bind fun i =>
    ((db.flatSets.rows.filter (fitsFilter L)).find? fun s => s.id = i).map
      (pickOf "active flat set '".toList "' (fixed rig)".toList)

theorem resolveFlatSet_of_pinned {p : FlatSetPick} (hrig : L.rigId = some rigId)
    (hp : pinnedPick db L rigId = some p) : resolveFlatSet instant db L = some p := by
  unfold resolveFlatSet
  rw [hrig]
  dsimp only [Option.bind_eq_bind, Option.bind_some]
  split
  · next q hq =>
    have hpick : pinnedPick db L rigId = some q := hq
    rw [← hpick, hp]
  · next hq =>
    have hpick : pinnedPick db L rigId = none := hq
    rw [hp] at hpick
    cases hpick

/-- Without a pin the rig decides. -/
theorem resolveFlatSet_of_unpinned (hrig : L.rigId = some rigId) (hp : pinnedPick db L rigId = none) :
    resolveFlatSet instant db L =
      (db.rigs.rows.find? fun r => decide ((r.id : Int) = rigId)).bind fun rig =>
        if rig.siteId.isSome then
          (L.sessionNight.bind (windowPick instant db L rigId)).or
            ((L.sessionNight.bind (capturedPick instant db L rigId)).or (activePick db L rig))
        else L.sessionNight.bind fun night =>
          (newest instant L.filterId.isSome ((fittingSets db L rigId).filter fun s =>
            s.capturedNight.any fun n => onOrBefore instant n night && onOrBefore instant night n)).map
            (pickOf "flat set '".toList ("' from the same session (".toList ++ night ++ ")".toList)) := by
  unfold resolveFlatSet
  rw [hrig]
  dsimp only [Option.bind_eq_bind, Option.bind_some]
  split
  · next q hq =>
    have hpick : pinnedPick db L rigId = some q := hq
    rw [hp] at hpick
    cases hpick
  · rfl

theorem resolveFlatSet_of_fixed {rig : Rig} {night : Str} (hrig : L.rigId = some rigId)
    (hp : pinnedPick db L rigId = none)
    (hfind : (db.rigs.rows.find? fun r => decide ((r.id : Int) = rigId)) = some rig)
    (hsite : rig.siteId.isSome = true) (hnight : L.sessionNight = some night) :
    resolveFlatSet instant db L = (windowPick instant db L rigId night).or
      ((capturedPick instant db L rigId night).or (activePick db L rig)) := by
  rw [resolveFlatSet_of_unpinned hrig hp, hfind]
  show (if rig.siteId.isSome = true then _ else _) = _
  rw [if_pos hsite, hnight]
  rfl

end Parts

/-! ### Windows -/

section Windows

variable [Host] {instant : Str → Option Micros} {db : EquipDb} {L : LightKey} {rig : Rig}
  {night : Str} {s t : FlatSet}

/-- A set's window, open where `valid_from` or `valid_to` is not given, contains the night. -/
def explicitCovers (instant : Str → Option Micros) (night : Str) (s : FlatSet) : Bool :=
  (s.validFrom.isSome || s.validTo.isSome) && s.validFrom.all (onOrBefore instant · night) &&
    s.validTo.all (onOrBefore instant night ·)

def windowless (s : FlatSet) : Bool := s.validFrom.isNone && s.validTo.isNone

/-- The sets a light of the night should choose from. -/
def Rightful (instant : Str → Option Micros) (db : EquipDb) (L : LightKey) (rigId : Int)
    (night : Str) (s : FlatSet) : Prop :=
  s ∈ fittingSets db L rigId ∧ (explicitCovers instant night s = true ∨
    ((∀ t ∈ fittingSets db L rigId, explicitCovers instant night t = false) ∧
      windowless s = true ∧ capturedBy instant night s = true))

/-- A light of a fixed rig with a session night and no fitting pin. -/
structure FixedRigNight (db : EquipDb) (L : LightKey) (rig : Rig) (night : Str) : Prop where
  mem : rig ∈ db.rigs.rows
  site : rig.siteId.isSome = true
  rigId : L.rigId = some (rig.id : Int)
  sessionNight : L.sessionNight = some night
  noPin : ∀ p ∈ db.pins, p.scope = .rigNight rig.id night → ∀ s ∈ db.flatSets.rows,
    s.id = p.flatSetId → fitsFilter L s = false

/-- The sets among which the query that decides takes the first. -/
def stageSets (instant : Str → Option Micros) (db : EquipDb) (L : LightKey) (rigId : Int)
    (night : Str) : List FlatSet :=
  if (fittingSets db L rigId).filter (windowCovers instant night) = [] then
    (fittingSets db L rigId).filter (capturedBy instant night)
  else (fittingSets db L rigId).filter (windowCovers instant night)

def activePrefix : Str := "active flat set '".toList

/-- The pick, unless it is the rig's active set, is a rightful set and no rightful one is preferred to
it. -/
def PicksPreferred (instant : Str → Option Micros) (db : EquipDb) (L : LightKey) (rigId : Int)
    (night : Str) : Prop :=
  ∀ p, resolveFlatSet instant db L = some p → ¬ activePrefix <+: p.reason →
    ∃ s, Rightful instant db L rigId night s ∧ s.id = p.id ∧
      ∀ t, Rightful instant db L rigId night t →
        preferKey instant L.filterId.isSome t ≤ preferKey instant L.filterId.isSome s

/-- Among the sets of the query that decides, every one that is not rightful comes behind a rightful
one, and no rightful set is preferred to all of them. -/
structure StageDecides (instant : Str → Option Micros) (db : EquipDb) (L : LightKey) (rigId : Int)
    (night : Str) : Prop where
  overruled : ∀ s ∈ stageSets instant db L rigId night, ¬ Rightful instant db L rigId night s →
    ∃ c ∈ stageSets instant db L rigId night, Rightful instant db L rigId night c ∧
      newestKey instant L.filterId.isSome s < newestKey instant L.filterId.isSome c
  reached : stageSets instant db L rigId night ≠ [] → ∀ t, Rightful instant db L rigId night t →
    ∃ c ∈ stageSets instant db L rigId night,
      preferKey instant L.filterId.isSome t ≤ preferKey instant L.filterId.isSome c

theorem pinnedPick_eq_none (h : FixedRigNight db L rig night) : pinnedPick db L rig.id = none := by
  unfold pinnedPick
  rw [h.sessionNight, Option.bind_some, Option.map_eq_none_iff, List.findSome?_eq_none_iff]
  intro p hp
  unfold pinnedSet
  cases hscope : p.scope with
  | savedQuery q => rfl
  | rigNight r n =>
    by_cases hhit : r = rig.id ∧ n = night
    · obtain ⟨rfl, rfl⟩ := hhit
      show (if _ then _ else none) = none
      rw [if_pos (by simp), List.find?_eq_none]
      intro s hs
      rw [List.mem_filter] at hs
      intro hid
      rw [h.noPin p hp hscope s hs.1 (of_decide_eq_true hid)] at hs
      cases hs.2
    · refine if_neg fun hboth => hhit ?_
      simpa using hboth

theorem resolveFlatSet_of_fixedRigNight (h : FixedRigNight db L rig night) :
    resolveFlatSet instant db L = (windowPick instant db L rig.id night).or
      ((capturedPick instant db L rig.id night).or (activePick db L rig)) := by
  refine resolveFlatSet_of_fixed h.rigId (pinnedPick_eq_none h) ?_ h.site h.sessionNight
  have hsome : (db.rigs.rows.find? fun r => decide ((r.id : Int) = rig.id)).isSome = true :=
    List.find?_isSome.mpr ⟨rig, h.mem, decide_eq_true rfl⟩
  obtain ⟨r, hr⟩ := Option.isSome_iff_exists.mp hsome
  have hid : r.id = rig.id := by simpa using List.find?_some hr
  rw [hr, List.inj_on_of_nodup_map db.rigs.id_nodup (List.mem_of_find?_eq_some hr) h.mem hid]

/-- The set that the queries of a fixed rig take, if they take one. -/
theorem resolveFlatSet_of_newest (h : FixedRigNight db L rig night)
    (hs : newest instant L.filterId.isSome (stageSets instant db L rig.id night) = some s) :
    ∃ after, resolveFlatSet instant db L = some (pickOf "flat set '".toList after s) := by
  rw [resolveFlatSet_of_fixedRigNight h]
  unfold stageSets at hs
  split at hs
  · next hnil =>
    have hwindow : windowPick instant db L rig.id night = none := by
      unfold windowPick
      rw [hnil]
      rfl
    unfold capturedPick
    rw [hwindow, hs]
    exact ⟨_, rfl⟩
  · unfold windowPick
    rw [hs]
    exact ⟨_, rfl⟩

/-- Where they take none, only the rig's active set is left. -/
theorem reason_of_no_stage (h : FixedRigNight db L rig night)
    (hnil : stageSets instant db L rig.id night = []) {p : FlatSetPick}
    (hp : resolveFlatSet instant db L = some p) : activePrefix <+: p.reason := by
  rw [resolveFlatSet_of_fixedRigNight h] at hp
  unfold stageSets at hnil
  split at hnil
  · next hw =>
    have hwindow : windowPick instant db L rig.id night = none := by
      unfold windowPick
      rw [hw]
      rfl
    have hcaptured : capturedPick instant db L rig.id night = none := by
      unfold capturedPick
      rw [hnil]
      rfl
    rw [hwindow, hcaptured, Option.none_or, Option.none_or] at hp
    obtain ⟨i, -, hi⟩ := Option.bind_eq_some_iff.mp hp
    obtain ⟨s, -, rfl⟩ := Option.map_eq_some_iff.mp hi
    exact ⟨_, (List.append_assoc _ _ _).symm⟩
  · next hw => exact absurd hnil hw

omit [Host] in
theorem not_activePrefix (after : Str) (s : FlatSet) :
    ¬ activePrefix <+: (pickOf "flat set '".toList after s).reason := by
  rintro ⟨rest, hrest⟩
  have hhead : some 'a' = some 'f' := congrArg List.head? hrest
  cases hhead

theorem fittingSets_mem {rigId : Int} (h : s ∈ fittingSets db L rigId) : s ∈ db.flatSets.rows :=
  List.mem_of_mem_filter (List.mem_of_mem_filter h)

theorem stageSets_mem {rigId : Int} (h : s ∈ stageSets instant db L rigId night) :
    s ∈ db.flatSets.rows := by
  unfold stageSets at h
  split at h
  · exact fittingSets_mem (List.mem_of_mem_filter h)
  · exact fittingSets_mem (List.mem_of_mem_filter h)

/-- What the pick has to be when the queries take a set. -/
theorem picksPreferred_iff_of_newest (h : FixedRigNight db L rig night)
    (hs : newest instant L.filterId.isSome (stageSets instant db L rig.id night) = some s) :
    PicksPreferred instant db L rig.id night ↔ Rightful instant db L rig.id night s ∧
      ∀ t, Rightful instant db L rig.id night t →
        preferKey instant L.filterId.isSome t ≤ preferKey instant L.filterId.isSome s := by
  obtain ⟨after, hres⟩ := resolveFlatSet_of_newest h hs
  rw [newest_eq_argmax] at hs
  have hrow : s ∈ db.flatSets.rows := stageSets_mem (List.argmax_mem hs)
  unfold PicksPreferred
  rw [hres]
  constructor
  · intro hpick
    obtain ⟨r, hr, hid, hmax⟩ := hpick _ rfl (not_activePrefix after s)
    have heq : r = s :=
      List.inj_on_of_nodup_map db.flatSets.id_nodup (fittingSets_mem hr.1) hrow hid
    rw [heq] at hr hmax
    exact ⟨hr, hmax⟩
  · rintro ⟨hr, hmax⟩ p hp -
    cases hp
    exact ⟨s, hr, rfl, hmax⟩

/-- The pick is the preferred rightful set exactly if such a set comes first in the query that
decides. -/
theorem picksPreferred_iff_stage (h : FixedRigNight db L rig night) :
    PicksPreferred instant db L rig.id night ↔ StageDecides instant db L rig.id night := by
  cases hs : newest instant L.filterId.isSome (stageSets instant db L rig.id night) with
  | none =>
    have hnil : stageSets instant db L rig.id night = [] :=
      List.argmax_eq_none.mp ((newest_eq_argmax _).symm.trans hs)
    refine iff_of_true (fun p hp hno => absurd (reason_of_no_stage h hnil hp) hno) ⟨?_, ?_⟩
    · intro s hs
      rw [hnil] at hs
      cases hs
    · intro hne
      exact absurd hnil hne
  | some s =>
    rw [picksPreferred_iff_of_newest h hs]
    rw [newest_eq_argmax] at hs
    have hmem : s ∈ stageSets instant db L rig.id night := List.argmax_mem hs
    constructor
    · rintro ⟨hr, hmax⟩
      refine ⟨fun u hu hnot => ⟨s, hmem, hr, ?_⟩, fun _ t ht => ⟨s, hmem, hmax t ht⟩⟩
      refine lt_of_le_of_ne (List.le_of_mem_argmax hu hs) fun he => hnot ?_
      have hkey := Prod.ext_iff.mp (toLex.injective he)
      have hid : u.id = s.id := (Prod.ext_iff.mp (toLex.injective hkey.2)).2
      rw [List.inj_on_of_nodup_map db.flatSets.id_nodup (stageSets_mem hu) (stageSets_mem hmem) hid]
      exact hr
    · intro hw
      constructor
      · by_contra hnot
        obtain ⟨c, hc, -, hlt⟩ := hw.overruled s hmem hnot
        exact absurd hlt (not_lt_of_ge (List.le_of_mem_argmax hc hs))
      · intro t ht
        obtain ⟨c, hc, hle⟩ := hw.reached (List.ne_nil_of_mem hmem) t ht
        exact hle.trans (preferKey_le_of_newestKey_le (List.le_of_mem_argmax hc hs))

end Windows

/-! ### The windows, capture nights and filters of the sets -/

section Columns

/-- `valid_from` is on or before the night, and `valid_to` is not before it if it is given. -/
def Opened (instant : Str → Option Micros) (night : Str) (s : FlatSet) : Prop :=
  (∃ a, s.validFrom = some a ∧ onOrBefore instant a night = true) ∧
    ∀ b, s.validTo = some b → onOrBefore instant night b = true

/-- Only `valid_to` is given, and it is not before the night. -/
def EndOnly (instant : Str → Option Micros) (night : Str) (s : FlatSet) : Prop :=
  s.validFrom = none ∧ ∃ b, s.validTo = some b ∧ onOrBefore instant night b = true

/-- The capture night is on or before the night, or unknown. -/
def CapturedInTime (instant : Str → Option Micros) (night : Str) (s : FlatSet) : Prop :=
  ∀ n, s.capturedNight = some n → onOrBefore instant n night = true

/-- Neither `valid_from` nor `valid_to` is given. -/
def NoWindow (s : FlatSet) : Prop := s.validFrom = none ∧ s.validTo = none

/-- A set of one filter leads one for all filters; of two alike, the one captured later leads. -/
def Leads (instant : Str → Option Micros) (a b : FlatSet) : Prop :=
  (a.filterId ≠ none ∧ b.filterId = none) ∨
    ((a.filterId = none ↔ b.filterId = none) ∧ capturedAt instant b < capturedAt instant a)

/-- The order of the queries: by `Leads`, then the larger id. -/
def Precedes (instant : Str → Option Micros) (a b : FlatSet) : Prop :=
  Leads instant a b ∨
    ((a.filterId = none ↔ b.filterId = none) ∧ capturedAt instant b = capturedAt instant a ∧
      b.id < a.id)

/-- What the windows of the rig's fitting sets `sets` have to be.  The query for windows leaves a set
with only an end out, and the query for captured sets does not look at windows. -/
structure WindowsDecide (instant : Str → Option Micros) (night : Str) (sets : List FlatSet) :
    Prop where
  /-- Some window has opened: no set with only an end leads all of those. -/
  opened : (∃ c ∈ sets, Opened instant night c) → ∀ t ∈ sets, EndOnly instant night t →
    ∃ c ∈ sets, Opened instant night c ∧ ¬ Leads instant t c
  /-- No window covers the night: each captured set with a window comes behind one without. -/
  past : (∀ c ∈ sets, ¬ Opened instant night c ∧ ¬ EndOnly instant night c) →
    ∀ s ∈ sets, CapturedInTime instant night s → ¬ NoWindow s →
      ∃ c ∈ sets, CapturedInTime instant night c ∧ NoWindow c ∧ Precedes instant c s
  /-- Only windows without a beginning cover the night: each other captured set comes behind such
  a one, and none of these leads all captured sets. -/
  endOnly : (∀ c ∈ sets, ¬ Opened instant night c) → (∃ t ∈ sets, EndOnly instant night t) →
    (∀ s ∈ sets, CapturedInTime instant night s → ¬ EndOnly instant night s →
      ∃ c ∈ sets, CapturedInTime instant night c ∧ EndOnly instant night c ∧ Precedes instant c s) ∧
    ((∃ s ∈ sets, CapturedInTime instant night s) → ∀ t ∈ sets, EndOnly instant night t →
      ∃ c ∈ sets, CapturedInTime instant night c ∧ ¬ Leads instant t c)

variable {instant : Str → Option Micros} {night : Str} {filtered : Bool} {a b s : FlatSet}

theorem windowCovers_iff : windowCovers instant night s = true ↔ Opened instant night s := by
  unfold windowCovers Opened
  cases s.validFrom <;> cases s.validTo <;> simp

theorem explicitCovers_iff : explicitCovers instant night s = true ↔
    Opened instant night s ∨ EndOnly instant night s := by
  unfold explicitCovers Opened EndOnly
  cases s.validFrom <;> cases s.validTo <;> simp

theorem capturedBy_iff : capturedBy instant night s = true ↔ CapturedInTime instant night s := by
  unfold capturedBy CapturedInTime
  cases s.capturedNight <;> simp

theorem windowless_iff : windowless s = true ↔ NoWindow s := by
  simp [windowless, NoWindow]

theorem leads_iff (hf : filtered = false → a.filterId = none ∧ b.filterId = none) :
    preferKey instant filtered b < preferKey instant filtered a ↔ Leads instant a b := by
  unfold preferKey Leads
  rw [Prod.Lex.toLex_lt_toLex]
  cases filtered with
  | false =>
    obtain ⟨ha, hb⟩ := hf rfl
    simp [ha, hb]
  | true => cases a.filterId <;> cases b.filterId <;> simp

theorem precedes_iff (hf : filtered = false → a.filterId = none ∧ b.filterId = none) :
    newestKey instant filtered b < newestKey instant filtered a ↔ Precedes instant a b := by
  unfold newestKey Precedes Leads
  rw [Prod.Lex.toLex_lt_toLex, Prod.Lex.toLex_lt_toLex]
  cases filtered with
  | false =>
    obtain ⟨ha, hb⟩ := hf rfl
    simp [ha, hb]
  | true => cases a.filterId <;> cases b.filterId <;> simp

end Columns

section Condition

variable [Host] {instant : Str → Option Micros} {db : EquipDb} {L : LightKey} {rigId : Int}
  {night : Str} {a b s t : FlatSet}

/-- A light without a filter gets only sets for all filters. -/
theorem fittingSets_agnostic (ha : a ∈ fittingSets db L rigId) (hb : b ∈ fittingSets db L rigId)
    (h : L.filterId.isSome = false) : a.filterId = none ∧ b.filterId = none := by
  have hnone : ∀ s ∈ fittingSets db L rigId, s.filterId = none := by
    intro s hs
    have hfit := List.of_mem_filter (List.mem_of_mem_filter hs)
    unfold fitsFilter at hfit
    cases hid : s.filterId with
    | none => rfl
    | some i =>
      have hlight : L.filterId = none := by simpa using h
      rw [hid, hlight] at hfit
      cases hfit
  exact ⟨hnone a ha, hnone b hb⟩

theorem prefers_iff (ha : a ∈ fittingSets db L rigId) (hb : b ∈ fittingSets db L rigId) :
    preferKey instant L.filterId.isSome a ≤ preferKey instant L.filterId.isSome b ↔
      ¬ Leads instant a b := by
  rw [← not_lt, leads_iff (fittingSets_agnostic ha hb)]

/-- A window that has opened leaves only the sets whose windows cover the night. -/
theorem rightful_of_opened (h : ∃ c ∈ fittingSets db L rigId, Opened instant night c) :
    Rightful instant db L rigId night s ↔
      s ∈ fittingSets db L rigId ∧ (Opened instant night s ∨ EndOnly instant night s) := by
  obtain ⟨c, hc, hopen⟩ := h
  unfold Rightful
  rw [explicitCovers_iff]
  refine and_congr_right fun _ => or_iff_left fun hno => ?_
  have hcovers := hno.1 c hc
  rw [explicitCovers_iff.mpr (Or.inl hopen)] at hcovers
  cases hcovers

theorem rightful_of_endOnly (hno : ∀ c ∈ fittingSets db L rigId, ¬ Opened instant night c)
    (h : ∃ c ∈ fittingSets db L rigId, EndOnly instant night c) :
    Rightful instant db L rigId night s ↔
      s ∈ fittingSets db L rigId ∧ EndOnly instant night s := by
  obtain ⟨c, hc, hend⟩ := h
  unfold Rightful
  rw [explicitCovers_iff]
  refine and_congr_right fun hs => ?_
  rw [or_iff_right (hno s hs)]
  refine or_iff_left fun hnone => ?_
  have hcovers := hnone.1 c hc
  rw [explicitCovers_iff.mpr (Or.inr hend)] at hcovers
  cases hcovers

theorem rightful_of_past (hno : ∀ c ∈ fittingSets db L rigId,
    ¬ Opened instant night c ∧ ¬ EndOnly instant night c) :
    Rightful instant db L rigId night s ↔
      s ∈ fittingSets db L rigId ∧ NoWindow s ∧ CapturedInTime instant night s := by
  unfold Rightful
  rw [explicitCovers_iff, windowless_iff, capturedBy_iff]
  refine and_congr_right fun hs => ?_
  have hnone : ∀ t ∈ fittingSets db L rigId, explicitCovers instant night t = false := by
    intro t ht
    rw [← Bool.not_eq_true, explicitCovers_iff, not_or]
    exact hno t ht
  rw [or_iff_right (not_or.mpr (hno s hs)), and_iff_right hnone]

theorem stageSets_of_opened (h : ∃ c ∈ fittingSets db L rigId, Opened instant night c) :
    s ∈ stageSets instant db L rigId night ↔
      s ∈ fittingSets db L rigId ∧ Opened instant night s := by
  obtain ⟨c, hc, hopen⟩ := h
  unfold stageSets
  rw [if_neg (List.ne_nil_of_mem (List.mem_filter.mpr ⟨hc, windowCovers_iff.mpr hopen⟩)),
    List.mem_filter, windowCovers_iff]

theorem stageSets_of_unopened (h : ∀ c ∈ fittingSets db L rigId, ¬ Opened instant night c) :
    s ∈ stageSets instant db L rigId night ↔
      s ∈ fittingSets db L rigId ∧ CapturedInTime instant night s := by
  unfold stageSets
  rw [if_pos (List.filter_eq_nil_iff.mpr fun c hc => (windowCovers_iff.not.mpr (h c hc))),
    List.mem_filter, capturedBy_iff]

theorem stageDecides_of_opened (h : ∃ c ∈ fittingSets db L rigId, Opened instant night c) :
    StageDecides instant db L rigId night ↔ ∀ t ∈ fittingSets db L rigId, EndOnly instant night t →
      ∃ c ∈ fittingSets db L rigId, Opened instant night c ∧ ¬ Leads instant t c := by
  have hstage : stageSets instant db L rigId night ≠ [] := by
    obtain ⟨c, hc, hopen⟩ := h
    exact List.ne_nil_of_mem ((stageSets_of_opened ⟨c, hc, hopen⟩).mpr ⟨hc, hopen⟩)
  constructor
  · intro hd t ht hend
    obtain ⟨c, hc, hle⟩ := hd.reached hstage t ((rightful_of_opened h).mpr ⟨ht, Or.inr hend⟩)
    obtain ⟨hfit, hopen⟩ := (stageSets_of_opened h).mp hc
    exact ⟨c, hfit, hopen, (prefers_iff ht hfit).mp hle⟩
  · intro hw
    constructor
    · intro s hs hnot
      obtain ⟨hfit, hopen⟩ := (stageSets_of_opened h).mp hs
      exact absurd ((rightful_of_opened h).mpr ⟨hfit, Or.inl hopen⟩) hnot
    · intro _ t ht
      obtain ⟨hfit, hopen | hend⟩ := (rightful_of_opened h).mp ht
      · exact ⟨t, (stageSets_of_opened h).mpr ⟨hfit, hopen⟩, le_refl _⟩
      · obtain ⟨c, hc, hopen, hno⟩ := hw t hfit hend
        exact ⟨c, (stageSets_of_opened h).mpr ⟨hc, hopen⟩, (prefers_iff hfit hc).mpr hno⟩

theorem stageDecides_of_past (h : ∀ c ∈ fittingSets db L rigId,
    ¬ Opened instant night c ∧ ¬ EndOnly instant night c) :
    StageDecides instant db L rigId night ↔
      ∀ s ∈ fittingSets db L rigId, CapturedInTime instant night s → ¬ NoWindow s →
        ∃ c ∈ fittingSets db L rigId, CapturedInTime instant night c ∧ NoWindow c ∧
          Precedes instant c s := by
  have hno : ∀ c ∈ fittingSets db L rigId, ¬ Opened instant night c := fun c hc => (h c hc).1
  constructor
  · intro hd s hs hcap hwin
    obtain ⟨c, hc, hright, hlt⟩ := hd.overruled s ((stageSets_of_unopened hno).mpr ⟨hs, hcap⟩)
      fun hr => hwin ((rightful_of_past h).mp hr).2.1
    obtain ⟨hfit, hnone, hccap⟩ := (rightful_of_past h).mp hright
    exact ⟨c, hfit, hccap, hnone, (precedes_iff (fittingSets_agnostic hfit hs)).mp hlt⟩
  · intro hw
    constructor
    · intro s hs hnot
      obtain ⟨hfit, hcap⟩ := (stageSets_of_unopened hno).mp hs
      obtain ⟨c, hc, hccap, hnone, hlt⟩ := hw s hfit hcap
        fun hnone => hnot ((rightful_of_past h).mpr ⟨hfit, hnone, hcap⟩)
      exact ⟨c, (stageSets_of_unopened hno).mpr ⟨hc, hccap⟩,
        (rightful_of_past h).mpr ⟨hc, hnone, hccap⟩,
        (precedes_iff (fittingSets_agnostic hc hfit)).mpr hlt⟩
    · intro _ t ht
      obtain ⟨hfit, -, hcap⟩ := (rightful_of_past h).mp ht
      exact ⟨t, (stageSets_of_unopened hno).mpr ⟨hfit, hcap⟩, le_refl _⟩

theorem stageDecides_of_endOnly (hno : ∀ c ∈ fittingSets db L rigId, ¬ Opened instant night c)
    (h : ∃ t ∈ fittingSets db L rigId, EndOnly instant night t) :
    StageDecides instant db L rigId night ↔
      (∀ s ∈ fittingSets db L rigId, CapturedInTime instant night s → ¬ EndOnly instant night s →
        ∃ c ∈ fittingSets db L rigId, CapturedInTime instant night c ∧ EndOnly instant night c ∧
          Precedes instant c s) ∧
      ((∃ s ∈ fittingSets db L rigId, CapturedInTime instant night s) →
        ∀ t ∈ fittingSets db L rigId, EndOnly instant night t →
          ∃ c ∈ fittingSets db L rigId, CapturedInTime instant night c ∧ ¬ Leads instant t c) := by
  constructor
  · intro hd
    refine ⟨fun s hs hcap hend => ?_, fun hany t ht hend => ?_⟩
    · obtain ⟨c, hc, hright, hlt⟩ := hd.overruled s ((stageSets_of_unopened hno).mpr ⟨hs, hcap⟩)
        fun hr => hend ((rightful_of_endOnly hno h).mp hr).2
      obtain ⟨hfit, hcend⟩ := (rightful_of_endOnly hno h).mp hright
      exact ⟨c, hfit, ((stageSets_of_unopened hno).mp hc).2, hcend,
        (precedes_iff (fittingSets_agnostic hfit hs)).mp hlt⟩
    · obtain ⟨s, hs, hcap⟩ := hany
      obtain ⟨c, hc, hle⟩ := hd.reached
        (List.ne_nil_of_mem ((stageSets_of_unopened hno).mpr ⟨hs, hcap⟩)) t
        ((rightful_of_endOnly hno h).mpr ⟨ht, hend⟩)
      obtain ⟨hfit, hccap⟩ := (stageSets_of_unopened hno).mp hc
      exact ⟨c, hfit, hccap, (prefers_iff ht hfit).mp hle⟩
  · intro hw
    constructor
    · intro s hs hnot
      obtain ⟨hfit, hcap⟩ := (stageSets_of_unopened hno).mp hs
      obtain ⟨c, hc, hccap, hend, hlt⟩ := hw.1 s hfit hcap
        fun hend => hnot ((rightful_of_endOnly hno h).mpr ⟨hfit, hend⟩)
      exact ⟨c, (stageSets_of_unopened hno).mpr ⟨hc, hccap⟩,
        (rightful_of_endOnly hno h).mpr ⟨hc, hend⟩,
        (precedes_iff (fittingSets_agnostic hc hfit)).mpr hlt⟩
    · intro hne t ht
      obtain ⟨hfit, hend⟩ := (rightful_of_endOnly hno h).mp ht
      obtain ⟨s, hs⟩ := List.exists_mem_of_ne_nil _ hne
      obtain ⟨c, hc, hccap, hlead⟩ :=
        hw.2 ⟨s, (stageSets_of_unopened hno).mp hs⟩ t hfit hend
      exact ⟨c, (stageSets_of_unopened hno).mpr ⟨hc, hccap⟩, (prefers_iff hfit hc).mpr hlead⟩

/-- What the deciding query has to find, read from the columns of the sets. -/
theorem stageDecides_iff : StageDecides instant db L rigId night ↔
    WindowsDecide instant night (fittingSets db L rigId) := by
  by_cases hopen : ∃ c ∈ fittingSets db L rigId, Opened instant night c
  · rw [stageDecides_of_opened hopen]
    obtain ⟨c, hc, hcopen⟩ := hopen
    exact ⟨fun h => ⟨fun _ => h, fun hno => absurd hcopen (hno c hc).1,
      fun hno => absurd hcopen (hno c hc)⟩, fun h => h.opened ⟨c, hc, hcopen⟩⟩
  · have hno : ∀ c ∈ fittingSets db L rigId, ¬ Opened instant night c :=
      fun c hc hcopen => hopen ⟨c, hc, hcopen⟩
    by_cases hend : ∃ t ∈ fittingSets db L rigId, EndOnly instant night t
    · rw [stageDecides_of_endOnly hno hend]
      obtain ⟨t, ht, htend⟩ := hend
      exact ⟨fun h => ⟨fun hany => absurd hany hopen, fun hpast => absurd htend (hpast t ht).2,
        fun _ _ => h⟩, fun h => h.endOnly hno ⟨t, ht, htend⟩⟩
    · have hpast : ∀ c ∈ fittingSets db L rigId,
          ¬ Opened instant night c ∧ ¬ EndOnly instant night c :=
        fun c hc => ⟨hno c hc, fun hcend => hend ⟨c, hc, hcend⟩⟩
      rw [stageDecides_of_past hpast]
      exact ⟨fun h => ⟨fun hany => absurd hany hopen, fun _ => h, fun _ hany => absurd hany hend⟩,
        fun h => h.past hpast⟩

/-- **The choice for a fixed rig, exactly.**  The pick is the preferred rightful set exactly if the
windows, capture nights and filters of the rig's fitting sets decide for one. -/
theorem picksPreferred_iff {rig : Rig} (h : FixedRigNight db L rig night) :
    PicksPreferred instant db L rig.id night ↔
      WindowsDecide instant night (fittingSets db L rig.id) :=
  (picksPreferred_iff_stage h).trans stageDecides_iff

end Condition

/-! ### Pins -/

section Pins

variable [Host] {instant : Str → Option Micros} {L : LightKey}

/-- A pin covers a light: of its rig and session night, or of a saved query that selects it. -/
def PinCovers (selects : ℕ → Prop) (L : LightKey) (p : Pin) : Prop :=
  match p.scope with
  | .rigNight r n => L.rigId = some (r : Int) ∧ L.sessionNight = some n
  | .savedQuery q => selects q

/-- `UNIQUE KEY uk_pin_rig_night (rig_id, session_night)`. -/
def PinsUnique (db : EquipDb) : Prop :=
  ∀ p ∈ db.pins, ∀ q ∈ db.pins, ∀ r n, p.scope = .rigNight r n → q.scope = .rigNight r n → p = q

/-- In every database that has the pin, and its set among those that fit the light, all flats a flat
rule returns come from that set. -/
def PinWins (instant : Str → Option Micros) (L : LightKey) (p : Pin) : Prop :=
  ∀ (db : EquipDb) (rule : CalibrationRule) (prefs : Preferences) (limit : ℕ) (cs : List FrameRow),
    PinsUnique db → p ∈ db.pins →
    (∃ s ∈ db.flatSets.rows, s.id = p.flatSetId ∧ fitsFilter L s = true) →
    rule.targetType = .flat → Candidates instant db L rule prefs limit cs →
    ∀ f ∈ cs, f.flatSetId = some p.flatSetId

theorem pinnedSet_eq_some {db : EquipDb} {rigId : Int} {night : Str} {p : Pin} {s : FlatSet}
    (h : pinnedSet db L rigId night p = some s) :
    ∃ r, p.scope = .rigNight r night ∧ (r : Int) = rigId ∧ s.id = p.flatSetId := by
  unfold pinnedSet at h
  cases hscope : p.scope with
  | savedQuery q =>
    rw [hscope] at h
    cases h
  | rigNight r n =>
    rw [hscope] at h
    dsimp only at h
    split at h
    · next hhit =>
      obtain ⟨hr, hn⟩ : (r : Int) = rigId ∧ n = night := by simpa using hhit
      exact ⟨r, by rw [hn], hr, by simpa using List.find?_some h⟩
    · cases h

theorem pinnedPick_of_rigNight {db : EquipDb} {p : Pin} {r : ℕ} {n : Str} (hu : PinsUnique db)
    (hp : p ∈ db.pins) (hscope : p.scope = .rigNight r n) (hnight : L.sessionNight = some n)
    (hfit : ∃ s ∈ db.flatSets.rows, s.id = p.flatSetId ∧ fitsFilter L s = true) :
    ∃ pick, pinnedPick db L r = some pick ∧ pick.id = p.flatSetId := by
  obtain ⟨s, hs, hid, hfit⟩ := hfit
  have hgives : (pinnedSet db L r n p).isSome = true := by
    unfold pinnedSet
    rw [hscope]
    show (if _ then _ else none).isSome = true
    rw [if_pos (by simp)]
    exact List.find?_isSome.mpr ⟨s, List.mem_filter.mpr ⟨hs, hfit⟩, decide_eq_true hid⟩
  obtain ⟨t, ht⟩ := Option.isSome_iff_exists.mp
    (List.findSome?_isSome_iff.mpr ⟨p, hp, hgives⟩)
  obtain ⟨q, hq, hqt⟩ := List.exists_of_findSome?_eq_some ht
  obtain ⟨r', hqscope, hr', htid⟩ := pinnedSet_eq_some hqt
  have hsame : q = p := by
    refine hu q hq p hp r n ?_ hscope
    rw [hqscope, Int.ofNat.inj hr']
  unfold pinnedPick
  rw [hnight, Option.bind_some, ht]
  exact ⟨_, rfl, by rw [← hsame]; exact htid⟩

/-- A flat rule returns flats of the set that resolves. -/
theorem candidates_of_resolved {db : EquipDb} {rule : CalibrationRule} {prefs : Preferences}
    {limit : ℕ} {cs : List FrameRow} {pick : FlatSetPick}
    (hres : resolveFlatSet instant db L = some pick) (htype : rule.targetType = .flat)
    (hcs : Candidates instant db L rule prefs limit cs) :
    ∀ f ∈ cs, f.flatSetId = some pick.id := by
  obtain ⟨r, hr, hrows⟩ := hcs
  have hcounted : ∀ f ∈ r.counted, f.flatSetId = some pick.id := by
    intro f hf
    unfold matchRule at hr
    rw [if_pos htype, hres] at hr
    split at hr
    · cases hr
      cases hf
    · cases hr
      have hin := List.of_mem_filter hf
      unfold inFlatSet at hin
      exact of_decide_eq_true (Bool.and_eq_true _ _ ▸ hin).1
  intro f hf
  rcases hrows with ⟨-, rfl⟩ | ⟨-, rows, hperm, -, rfl⟩
  · exact hcounted f (mem_orderBy.mp (List.mem_of_mem_take hf))
  · exact hcounted f (hperm.mem_iff.mp (List.mem_of_mem_take hf))

/-- A flat of no set. -/
def looseFlat : FrameRow := ⟨1, 1, 0, [], { imageType := .flat }, {}, none, none⟩

/-- The rig of the light. -/
def lightRigId (L : LightKey) : ℕ := L.rigId.elim 0 Int.toNat

def lightFrame (L : LightKey) : FrameRow :=
  ⟨2, 2, 0, [], { imageType := .light }, { rigId := some (lightRigId L) }, none, none⟩

/-- A database with the light and its rig, which has no site; one pin of a saved query, its set, of
an unknown night; and a flat that is not in the set. -/
def savedPinDb (L : LightKey) (p : Pin) (h : p.scope.rig = none) : EquipDb where
  frames := ⟨[looseFlat, lightFrame L], 3, by simp [looseFlat, lightFrame, frameKeying],
    by simp [looseFlat, lightFrame, frameKeying], by simp [looseFlat, lightFrame, frameKeying]⟩
  rigs := ⟨[⟨lightRigId L, [], 1, none, none, 0, 0, none, true⟩], lightRigId L + 1,
    List.forall_mem_singleton.mpr (Nat.lt_succ_self _), List.nodup_singleton _,
    List.nodup_singleton _⟩
  flatSets := ⟨[⟨p.flatSetId, lightRigId L, none, [], .manual, none, none, none, 0, none, none, none⟩],
    p.flatSetId + 1, List.forall_mem_singleton.mpr (Nat.lt_succ_self _), List.nodup_singleton _,
    List.nodup_singleton _⟩
  pins := [p]
  nextPin := p.id + 1
  telescopes := Table.empty nameKeying
  cameraIds := [1]
  siteIds := []
  savedQueryIds := []
  frames_fk := by simp [looseFlat, lightFrame, Table.ids, rigKeying]
  flatSets_fk := List.forall_mem_singleton.mpr (List.mem_singleton_self _)
  pins_fk := List.forall_mem_singleton.mpr ⟨List.mem_singleton_self _, fun r hr => by
    rw [h] at hr
    cases hr⟩

theorem resolveFlatSet_savedPinDb {p : Pin} (h : p.scope.rig = none) {q : ℕ}
    (hscope : p.scope = .savedQuery q) : resolveFlatSet instant (savedPinDb L p h) L = none := by
  cases hrig : L.rigId with
  | none =>
    unfold resolveFlatSet
    rw [hrig]
    rfl
  | some k =>
    have hpin : pinnedPick (savedPinDb L p h) L k = none := by
      unfold pinnedPick
      cases L.sessionNight with
      | none => rfl
      | some n =>
        have hgives : pinnedSet (savedPinDb L p h) L k n p = none := by
          unfold pinnedSet
          rw [hscope]
        show ([p].findSome? (pinnedSet (savedPinDb L p h) L k n)).map _ = none
        rw [List.findSome?_cons, hgives]
        rfl
    -- the rig has no site, and its set is of no known night
    have hnight : ∀ night, (fittingSets (savedPinDb L p h) L k).filter (fun s =>
        s.capturedNight.any fun n => onOrBefore instant n night && onOrBefore instant night n) = [] := by
      intro night
      rw [List.filter_eq_nil_iff]
      intro s hs
      rw [List.mem_singleton.mp (fittingSets_mem hs)]
      simp
    rw [resolveFlatSet_of_unpinned hrig hpin, Option.bind_eq_none_iff]
    intro rig hfind
    rw [List.mem_singleton.mp (List.mem_of_find?_eq_some hfind), if_neg (by simp)]
    cases L.sessionNight with
    | none => rfl
    | some night =>
      rw [Option.bind_some, hnight]
      rfl

/-- A rule of flats without fields returns that flat. -/
theorem looseFlat_returned {p : Pin} (h : p.scope.rig = none) {q : ℕ}
    (hscope : p.scope = .savedQuery q) :
    Candidates instant (savedPinDb L p h) L (plainRule .flat) ⟨true, true⟩ 1 [looseFlat] := by
  have hres : resolveFlatSet instant (savedPinDb L p h) L = none :=
    resolveFlatSet_savedPinDb h hscope
  have htype : (plainRule .flat).targetType = .flat := rfl
  have hrun : matchRule instant (savedPinDb L p h) L (plainRule .flat)
      = .ok ⟨.flat, "flat".toList, [looseFlat], []⟩ := by
    unfold matchRule
    rw [if_pos htype, hres]
    rfl
  exact (candidates_iff_of_noFlatSet (fun _ => hres) hrun).mpr rfl

/-- **Pins, exactly.**  A pin that covers a light overrides every other choice exactly if it is a pin
of a rig and a night: those of saved queries are never looked at. -/
theorem pin_wins_iff {selects : ℕ → Prop} {p : Pin} (hcovers : PinCovers selects L p) :
    PinWins instant L p ↔ ∃ r n, p.scope = .rigNight r n := by
  constructor
  · intro hwins
    cases hscope : p.scope with
    | rigNight r n => exact ⟨r, n, rfl⟩
    | savedQuery q =>
      have hrig : p.scope.rig = none := by
        rw [hscope]
        rfl
      have hunique : PinsUnique (savedPinDb L p hrig) := by
        intro a ha b hb _ _ _ _
        rw [List.mem_singleton.mp ha, List.mem_singleton.mp hb]
      have hnone := hwins (savedPinDb L p hrig) (plainRule .flat) ⟨true, true⟩ 1 [looseFlat] hunique
        (List.mem_singleton.mpr rfl) ⟨_, List.mem_singleton.mpr rfl, rfl, rfl⟩ rfl
        (looseFlat_returned hrig hscope) looseFlat (List.mem_singleton.mpr rfl)
      cases hnone
  · rintro ⟨r, n, hscope⟩ db rule prefs limit cs hu hp hfit htype hcs
    unfold PinCovers at hcovers
    rw [hscope] at hcovers
    obtain ⟨pick, hpick, hid⟩ := pinnedPick_of_rigNight hu hp hscope hcovers.2 hfit
    rw [← hid]
    exact candidates_of_resolved (resolveFlatSet_of_pinned hcovers.1 hpick) htype hcs

end Pins

/-! ### Two windows, and a pin of each scope -/

section Values

attribute [local instance] plainHost

/-- Five nights of a month. -/
def march (date : Str) : Option Micros :=
  [("2024-03-01".toList, 1709251200000000), ("2024-03-05".toList, 1709596800000000),
    ("2024-03-06".toList, 1709683200000000), ("2024-03-10".toList, 1710028800000000),
    ("2024-03-20".toList, 1710892800000000)].lookup date

/-- A rig with a site. -/
def siteRig : Rig := ⟨1, "rig".toList, 1, none, some 1, 0, 0, none, true⟩

/-- A set captured on the first, without a window. -/
def openSet : FlatSet :=
  ⟨1, 1, none, "a".toList, .manual, some "2024-03-01".toList, none, none, 0, none, none, none⟩

/-- A set captured on the fifth, with a window. -/
def windowSet (first last : Str) : FlatSet :=
  ⟨2, 1, none, "b".toList, .manual, some "2024-03-05".toList, none, none, 0, some first, some last, none⟩

theorem openWindow_keyed (first last : Str) :
    (∀ s ∈ [openSet, windowSet first last], flatSetKeying.id s < 3) ∧
      ([openSet, windowSet first last].map flatSetKeying.id).Nodup ∧
      ([openSet, windowSet first last].map flatSetKeying.key).Nodup := by
  refine ⟨by simp [openSet, windowSet, flatSetKeying], by simp [openSet, windowSet, flatSetKeying], ?_⟩
  simp only [openSet, windowSet, flatSetKeying, List.map_cons, List.map_nil]
  decide

def windowDb (first last : Str) : EquipDb where
  frames := Table.empty frameKeying
  rigs := ⟨[siteRig], 2, List.forall_mem_singleton.mpr (Nat.lt_succ_self 1), List.nodup_singleton _,
    List.nodup_singleton _⟩
  flatSets := ⟨[openSet, windowSet first last], 3, (openWindow_keyed first last).1,
    (openWindow_keyed first last).2.1, (openWindow_keyed first last).2.2⟩
  pins := []
  nextPin := 1
  telescopes := Table.empty nameKeying
  cameraIds := [1]
  siteIds := [1]
  savedQueryIds := []
  frames_fk := fun _ hf => absurd hf List.not_mem_nil
  flatSets_fk := List.forall_mem_cons.mpr ⟨List.mem_singleton_self _,
    List.forall_mem_singleton.mpr (List.mem_singleton_self _)⟩
  pins_fk := nofun

/-- A light of the rig in the night of the tenth. -/
def rigLight : LightKey := { rigId := some 1, sessionNight := some "2024-03-10".toList }

theorem rigLight_fixed (first last : Str) :
    FixedRigNight (windowDb first last) rigLight siteRig "2024-03-10".toList :=
  ⟨List.mem_singleton.mpr rfl, rfl, rfl, rfl, nofun⟩

theorem fittingSets_windowDb (first last : Str) :
    fittingSets (windowDb first last) rigLight siteRig.id = [openSet, windowSet first last] := rfl

/-- A window that covers the night decides. -/
theorem window_covers_picked : PicksPreferred march
    (windowDb "2024-03-01".toList "2024-03-20".toList) rigLight siteRig.id "2024-03-10".toList := by
  have hopen : Opened march "2024-03-10".toList (windowSet "2024-03-01".toList "2024-03-20".toList) :=
    windowCovers_iff.mp (by decide)
  refine (picksPreferred_iff (rigLight_fixed _ _)).mpr ⟨fun _ t ht hend => ?_, fun hpast => ?_,
    fun hno => ?_⟩
  · rw [fittingSets_windowDb, List.mem_cons, List.mem_singleton] at ht
    obtain ⟨hfrom, last, hlast, -⟩ := hend
    rcases ht with rfl | rfl
    · cases hlast
    · cases hfrom
  · exact absurd hopen (hpast _ (by simp [fittingSets_windowDb])).1
  · exact absurd hopen (hno _ (by simp [fittingSets_windowDb]))

/-- A set whose window ended before the night is picked. -/
theorem window_ended_picked :
    FixedRigNight (windowDb "2024-03-05".toList "2024-03-06".toList) rigLight siteRig
        "2024-03-10".toList ∧
      resolveFlatSet march (windowDb "2024-03-05".toList "2024-03-06".toList) rigLight =
        some ⟨2, "flat set 'b' (newest on/before 2024-03-10, fixed rig)".toList⟩ ∧
      ¬ PicksPreferred march (windowDb "2024-03-05".toList "2024-03-06".toList) rigLight siteRig.id
        "2024-03-10".toList := by
  have hres : resolveFlatSet march (windowDb "2024-03-05".toList "2024-03-06".toList) rigLight =
      some ⟨2, "flat set 'b' (newest on/before 2024-03-10, fixed rig)".toList⟩ := by decide
  refine ⟨rigLight_fixed _ _, hres, fun hpick => ?_⟩
  obtain ⟨s, hs, hid, -⟩ := hpick _ hres (by decide)
  have hmem := hs.1
  rw [fittingSets_windowDb, List.mem_cons, List.mem_singleton] at hmem
  rcases hmem with rfl | rfl
  · cases hid
  · rcases hs.2 with h | h
    · exact absurd h (by decide)
    · exact absurd h.2.1 (by decide)

/-- A pin of the rig and the night wins. -/
theorem pin_wins_rigNight : PinWins march rigLight ⟨1, 5, .rigNight 1 "2024-03-10".toList⟩ := by
  have hcovers : PinCovers (fun _ => False) rigLight ⟨1, 5, .rigNight 1 "2024-03-10".toList⟩ :=
    ⟨rfl, rfl⟩
  exact (pin_wins_iff hcovers).mpr ⟨_, _, rfl⟩

/-- A pin of saved query 3, which selects the light, does not. -/
theorem savedQuery_ignored :
    PinCovers (fun q => q = 3) rigLight ⟨1, 5, .savedQuery 3⟩ ∧
      (∃ s ∈ (savedPinDb rigLight ⟨1, 5, .savedQuery 3⟩ rfl).flatSets.rows,
        s.id = 5 ∧ fitsFilter rigLight s = true) ∧
      Candidates march (savedPinDb rigLight ⟨1, 5, .savedQuery 3⟩ rfl) rigLight
        (plainRule .flat) ⟨true, true⟩ 1 [looseFlat] ∧
      looseFlat.flatSetId ≠ some 5 :=
  ⟨rfl, ⟨_, List.mem_singleton.mpr rfl, rfl, rfl⟩, looseFlat_returned rfl rfl, by decide⟩

end Values

end StarBase.Match
