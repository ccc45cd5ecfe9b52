import Mathlib.Data.List.Find
import StarBase.Api.Auth
import StarBase.Lib.Separated

/-!
# One cookie of a request

`get_cookie` reads the `Cookie` header with two searches a pass: one for `=`, and from there one for
`;`. The first search does not stop at a `;`, so a segment without `=` and the segment behind it are
one key to it.

* `passes` — what each pass of the loop takes;
* `namedCookie` — what it is for: the value of the first segment of that name;
* `getCookie_iff` — **PROVED**: the two agree if and only if the first segment of that name does not
  stand behind a segment without `=`, a coincidence of values apart.
-/

namespace StarBase.Api

open Separated

/-! ### The segments -/

def beforeEq (seg : Str) : Str := seg.takeWhile (· ≠ '=')

def afterEq (seg : Str) : Str := (seg.dropWhile (· ≠ '=')).tail

/-- The name of a segment; one without `=` has none. -/
def cookieName (seg : Str) : Option Str :=
  if '=' ∈ seg then some ((beforeEq seg).dropWhile isBlank) else none

def segments (c : Str) : List Str := c.splitOn ';'

/-- The value of the first segment of that name. -/
def namedCookie (name c : Str) : Str :=
  ((segments c).find? fun seg => cookieName seg = some name).elim [] afterEq

/-- What one pass of the loop takes: a segment with `=`, and those without that stand before it. -/
structure Pass where
  bare : List Str
  seg : Str
  deriving DecidableEq

/-- The key a pass compares. -/
def Pass.key (p : Pass) : Str :=
  ([';'].intercalate (p.bare ++ [beforeEq p.seg])).dropWhile isBlank

def passesFrom (bare : List Str) : List Str → List Pass
  | [] => []
  | seg :: segs =>
    if '=' ∈ seg then ⟨bare, seg⟩ :: passesFrom [] segs else passesFrom (bare ++ [seg]) segs

def passes (c : Str) : List Pass := passesFrom [] (segments c)

/-! ### What the loop returns -/

theorem eq_split {seg : Str} (h : '=' ∈ seg) : seg = beforeEq seg ++ '=' :: afterEq seg := by
  have hne : seg.dropWhile (· ≠ '=') ≠ [] := fun hnil => by
    have hall := List.dropWhile_eq_nil_iff.mp hnil '=' h
    exact absurd hall (by decide)
  obtain ⟨d, ds, hd⟩ := List.exists_cons_of_ne_nil hne
  have hhead := List.head?_dropWhile_not (· ≠ '=') seg
  rw [hd] at hhead
  have heq : d = '=' := by simpa using hhead
  unfold beforeEq afterEq
  rw [hd, List.tail_cons]
  subst heq
  exact (hd ▸ List.takeWhile_append_dropWhile).symm

theorem not_mem_beforeEq (seg : Str) : '=' ∉ beforeEq seg := fun h => by
  have := List.mem_takeWhile_imp h
  cases this

theorem ne_of_not_mem {d : Char} {s : Str} (h : d ∉ s) : ∀ c ∈ s, decide (c ≠ d) = true := fun _ hc =>
  decide_eq_true fun he => h (he ▸ hc)

/-- The text behind the last of some segments. -/
def following : List Str → Str
  | [] => []
  | seg :: segs => ';' :: [';'].intercalate (seg :: segs)

theorem intercalate_cons (seg : Str) (segs : List Str) :
    [';'].intercalate (seg :: segs) = seg ++ following segs := by
  cases segs with
  | nil => simp [following]
  | cons t ts =>
    rw [List.intercalate_cons_cons]
    simp [following]

theorem intercalate_split (bare : List Str) (x y : Str) (segs : List Str) :
    [';'].intercalate (bare ++ (x ++ y) :: segs) =
      [';'].intercalate (bare ++ [x]) ++ y ++ following segs := by
  induction bare with
  | nil =>
    rw [List.nil_append, List.nil_append, intercalate_cons, List.intercalate_singleton]
  | cons b bare ih =>
    rw [List.cons_append, List.cons_append, intercalate_cons, intercalate_cons]
    have hl : following (bare ++ (x ++ y) :: segs) = ';' :: [';'].intercalate (bare ++ (x ++ y) :: segs) := by
      cases bare <;> rfl
    have hr : following (bare ++ [x]) = ';' :: [';'].intercalate (bare ++ [x]) := by
      cases bare <;> rfl
    rw [hl, hr, ih]
    simp

theorem cookieFrom_of_no_eq {name c : Str} (h : '=' ∉ c) (fuel : ℕ) : cookieFrom name fuel c = [] := by
  cases fuel with
  | zero => rfl
  | succ fuel => exact if_neg h

/-- One pass. -/
theorem cookieFrom_pass {name front val tail : Str} (hfront : '=' ∉ front) (hval : ';' ∉ val)
    (htail : ∀ c ∈ tail.head?, c = ';') (fuel : ℕ) :
    cookieFrom name (fuel + 1) (front ++ '=' :: (val ++ tail)) =
      if front.dropWhile isBlank = name then val else cookieFrom name fuel tail.tail := by
  have hdrop : (front ++ '=' :: (val ++ tail)).dropWhile (· ≠ '=') = '=' :: (val ++ tail) :=
    dropWhile_append_stop (ne_of_not_mem hfront) (by simp)
  have htake : (front ++ '=' :: (val ++ tail)).takeWhile (· ≠ '=') = front :=
    takeWhile_append_stop (ne_of_not_mem hfront) (by simp)
  have hstop : ∀ c ∈ tail.head?, decide (c ≠ ';') = false := fun c hc => by rw [htail c hc]; rfl
  have hval' : (val ++ tail).takeWhile (· ≠ ';') = val :=
    takeWhile_append_stop (ne_of_not_mem hval) hstop
  have hrest : (val ++ tail).dropWhile (· ≠ ';') = tail :=
    dropWhile_append_stop (ne_of_not_mem hval) hstop
  have hmem : '=' ∈ front ++ '=' :: (val ++ tail) := List.mem_append_right _ List.mem_cons_self
  conv_lhs => unfold cookieFrom
  rw [if_pos hmem, hdrop, htake, List.tail_cons]
  dsimp only
  rw [hval', hrest]
  by_cases hkey : front.dropWhile isBlank = name
  · rw [if_pos hkey, if_pos hkey]
  · rw [if_neg hkey, if_neg hkey]
    cases tail with
    | nil =>
      rw [List.append_nil, if_neg hval]
      exact (cookieFrom_of_no_eq List.not_mem_nil fuel).symm
    | cons d tail =>
      rw [htail d rfl, if_pos (List.mem_append_right _ List.mem_cons_self)]

theorem head_following (segs : List Str) : ∀ c ∈ (following segs).head?, c = ';' := by
  cases segs with
  | nil => nofun
  | cons seg segs => exact fun c hc => (Option.some.inj hc).symm

theorem cookieFrom_passesFrom (name : Str) {bare segs : List Str} (hbare : Free '=' bare)
    (hsegs : Free ';' segs) {fuel : ℕ} (hfuel : segs.length ≤ fuel) :
    cookieFrom name fuel ([';'].intercalate (bare ++ segs)) =
      ((passesFrom bare segs).find? fun p => p.key = name).elim [] fun p => afterEq p.seg := by
  induction segs generalizing bare fuel with
  | nil =>
    rw [List.append_nil]
    exact cookieFrom_of_no_eq ((not_mem_intercalate_iff (by decide)).mpr hbare) fuel
  | cons seg segs ih =>
    obtain ⟨hseg, hrest⟩ := free_cons.mp hsegs
    unfold passesFrom
    by_cases heq : '=' ∈ seg
    · obtain ⟨fuel, rfl⟩ : ∃ k, fuel = k + 1 := ⟨fuel - 1, by rw [List.length_cons] at hfuel; omega⟩
      rw [if_pos heq]
      -- the search for `=` ends in this segment, whatever stands before it
      have hfront : '=' ∉ [';'].intercalate (bare ++ [beforeEq seg]) := by
        refine (not_mem_intercalate_iff (by decide)).mpr fun v hv => ?_
        rcases List.mem_append.mp hv with hv | hv
        · exact hbare v hv
        · rw [List.mem_singleton.mp hv]
          exact not_mem_beforeEq seg
      have hval : ';' ∉ afterEq seg := fun hmem => hseg (by
        rw [eq_split heq]
        exact List.mem_append_right _ (List.mem_cons_of_mem _ hmem))
      conv_lhs => rw [eq_split heq]
      rw [intercalate_split, List.append_assoc, List.cons_append,
        cookieFrom_pass hfront hval (head_following segs), List.find?_cons]
      change (if (⟨bare, seg⟩ : Pass).key = name then afterEq seg else _) = _
      by_cases hkey : (⟨bare, seg⟩ : Pass).key = name
      · rw [if_pos hkey, decide_eq_true hkey]
        rfl
      · rw [if_neg hkey, decide_eq_false hkey]
        have hnext : (following segs).tail = [';'].intercalate ([] ++ segs) := by
          cases segs <;> rfl
        rw [hnext]
        exact ih (List.forall_mem_nil _) hrest (Nat.le_of_succ_le_succ hfuel)
    · rw [if_neg heq, List.append_cons]
      exact ih (List.forall_mem_append.mpr ⟨hbare, List.forall_mem_singleton.mpr heq⟩) hrest
        (Nat.le_of_succ_le hfuel)

theorem length_splitOn_le (c : Str) : (c.splitOn ';').length ≤ c.length + 1 := by
  induction c with
  | nil => exact Nat.le_refl 1
  | cons a c ih =>
    rw [List.splitOn_cons_eq_if_modifyHead, List.length_cons]
    split
    · rw [List.length_cons]
      omega
    · rw [List.length_modifyHead]
      omega

/-- The loop returns the value of the first pass with that key. -/
theorem getCookie_passes (req : Request) (name : Str) :
    getCookie req name =
      ((passes req.cookie).find? fun p => p.key = name).elim [] fun p => afterEq p.seg := by
  have hjoin : [';'].intercalate ([] ++ segments req.cookie) = req.cookie :=
    List.intercalate_splitOn ';'
  have hfree : Free ';' (segments req.cookie) := fun _ hv => not_mem_of_mem_splitOn hv
  have hrun := cookieFrom_passesFrom name (List.forall_mem_nil _) hfree
    (length_splitOn_le req.cookie)
  rw [hjoin] at hrun
  exact hrun

/-- Each segment with `=` ends one pass, in their order. -/
theorem find_passesFrom (name : Str) (bare segs : List Str) :
    segs.find? (fun seg => cookieName seg = some name) =
      ((passesFrom bare segs).find? fun p => cookieName p.seg = some name).map Pass.seg := by
  induction segs generalizing bare with
  | nil => rfl
  | cons seg segs ih =>
    unfold passesFrom
    rw [List.find?_cons]
    by_cases heq : '=' ∈ seg
    · rw [if_pos heq, List.find?_cons]
      by_cases hname : cookieName seg = some name
      · simp only [hname, decide_true]
        rfl
      · simp only [hname, decide_false]
        exact ih []
    · have hnone : cookieName seg = none := if_neg heq
      rw [if_neg heq]
      simp only [hnone, reduceCtorEq, decide_false]
      exact ih _

theorem namedCookie_passes (name c : Str) :
    namedCookie name c =
      ((passes c).find? fun p => cookieName p.seg = some name).elim [] fun p => afterEq p.seg := by
  unfold namedCookie passes
  rw [find_passesFrom name [], Option.elim_map]
  rfl

/-! ### Which segment is found -/

theorem passesFrom_seg {bare segs : List Str} (hsegs : Free ';' segs) :
    ∀ p ∈ passesFrom bare segs, '=' ∈ p.seg ∧ ';' ∉ p.seg := by
  induction segs generalizing bare with
  | nil => nofun
  | cons seg segs ih =>
    obtain ⟨hseg, hrest⟩ := free_cons.mp hsegs
    unfold passesFrom
    by_cases heq : '=' ∈ seg
    · rw [if_pos heq]
      exact List.forall_mem_cons.mpr ⟨⟨heq, hseg⟩, ih hrest⟩
    · rw [if_neg heq]
      exact ih hrest

theorem passes_seg {c : Str} : ∀ p ∈ passes c, '=' ∈ p.seg ∧ ';' ∉ p.seg :=
  passesFrom_seg fun _ hv => not_mem_of_mem_splitOn hv

theorem cookieName_free {seg name : Str} (hseg : ';' ∉ seg) (h : cookieName seg = some name) :
    ';' ∉ name := by
  unfold cookieName at h
  split at h
  · cases h
    intro hmem
    have hbefore := (List.dropWhile_sublist _).subset hmem
    exact hseg ((List.takeWhile_sublist _).subset hbefore)
  · cases h

theorem mem_dropWhile {d : Char} {p : Char → Bool} {s : Str} (h : d ∈ s) (hp : p d = false) :
    d ∈ s.dropWhile p := by
  induction s with
  | nil => cases h
  | cons c s ih =>
    rw [List.dropWhile_cons]
    split
    · next hc =>
      rcases List.mem_cons.mp h with rfl | h
      · rw [hp] at hc
        cases hc
      · exact ih h
    · exact h

/-- With nothing in front of it, the key of a pass is the name of its segment. -/
theorem key_of_front {p : Pass} (hbare : p.bare = []) (hseg : '=' ∈ p.seg) :
    cookieName p.seg = some p.key := by
  unfold cookieName Pass.key
  rw [if_pos hseg, hbare, List.nil_append, List.intercalate_singleton]

/-- With segments in front of it, the key has a `;` in it. -/
theorem key_of_behind {p : Pass} (hbare : p.bare ≠ []) : ';' ∈ p.key := by
  unfold Pass.key
  refine mem_dropWhile ?_ rfl
  obtain ⟨b, bs, hb⟩ := List.exists_cons_of_ne_nil hbare
  rw [hb, List.cons_append, intercalate_cons]
  refine List.mem_append_right _ ?_
  cases bs <;> exact List.mem_cons_self

/-- The name is that of the segment, or spelled by the segments without `=` and this one. -/
def Concerns (name : Str) (p : Pass) : Prop := p.key = name ∨ cookieName p.seg = some name

instance (name : Str) : DecidablePred (Concerns name) := fun _ => instDecidableOr

/-- The value of the first segment of that name that stands behind no segment without `=`. -/
def plainValue (name c : Str) : Str :=
  ((passes c).find? fun p => p.bare = [] ∧ cookieName p.seg = some name).elim [] fun p => afterEq p.seg

/-- The first segment concerned stands behind no segment without `=`, or its value is, by
coincidence, that of the first one of the name that does not (a name with a `;` has none). -/
def Unswallowed (name c : Str) : Prop :=
  ∀ p, (passes c).find? (fun p => Concerns name p) = some p →
    p.bare = [] ∨ afterEq p.seg = if ';' ∈ name then [] else plainValue name c

/-- The first member with the weaker property, if it has the stronger one, is the first with it. -/
theorem find_of_imp {α : Type} {l : List α} {p q : α → Bool} {a : α} (hp : l.find? p = some a)
    (hq : q a = true) (himp : ∀ b, q b = true → p b = true) : l.find? q = some a := by
  obtain ⟨-, pre, post, rfl, hpre⟩ := List.find?_eq_some_iff_append.mp hp
  refine List.find?_eq_some_iff_append.mpr ⟨hq, pre, post, rfl, fun b hb => ?_⟩
  have hnot := hpre b hb
  cases hb' : q b with
  | false => rfl
  | true =>
    rw [himp b hb'] at hnot
    cases hnot

/-- **PROVED: the header and the name decide.** `get_cookie` returns the value of the first segment
of that name, and nothing if there is none, if and only if the first segment concerned stands behind
no segment without `=`, a coincidence of values apart. -/
theorem getCookie_iff (req : Request) (name : Str) :
    getCookie req name = namedCookie name req.cookie ↔ Unswallowed name req.cookie := by
  rw [getCookie_passes, namedCookie_passes]
  generalize req.cookie = c
  unfold Unswallowed
  by_cases hsemi : ';' ∈ name
  · have hname : ∀ p ∈ passes c, cookieName p.seg ≠ some name := fun p hp h =>
      cookieName_free (passes_seg p hp).2 h hsemi
    have hkey : (passes c).find? (fun p => p.key = name) =
        (passes c).find? fun p => Concerns name p :=
      List.find?_congr fun p hp => decide_eq_decide.mpr ((or_iff_left (hname p hp)).symm)
    have hnone : ((passes c).find? fun p => cookieName p.seg = some name) = none :=
      List.find?_eq_none.mpr fun p hp => by simpa using hname p hp
    rw [hkey, hnone, if_pos hsemi]
    cases hfind : (passes c).find? fun p => Concerns name p with
    | none => exact iff_of_true rfl nofun
    | some p =>
      have hmem := List.mem_of_find?_eq_some hfind
      have hconcerns : Concerns name p := by simpa using List.find?_some hfind
      have hbare : p.bare ≠ [] := fun hbare => by
        have hk := key_of_front hbare (passes_seg p hmem).1
        rcases hconcerns with h | h
        · exact hname p hmem (h ▸ hk)
        · exact hname p hmem h
      constructor
      · rintro h q hq
        cases hq
        exact .inr h
      · intro h
        exact (h p rfl).resolve_left hbare
  · have hkeyIff : ∀ p ∈ passes c, p.key = name ↔ p.bare = [] ∧ cookieName p.seg = some name := by
      intro p hp
      by_cases hbare : p.bare = []
      · rw [key_of_front hbare (passes_seg p hp).1]
        simp [hbare]
      · refine iff_of_false (fun h => ?_) fun h => hbare h.1
        exact hsemi (h ▸ key_of_behind hbare)
    have hkey : (passes c).find? (fun p => p.key = name) =
        (passes c).find? fun p => p.bare = [] ∧ cookieName p.seg = some name :=
      List.find?_congr fun p hp => decide_eq_decide.mpr (hkeyIff p hp)
    have hnamed : (passes c).find? (fun p => cookieName p.seg = some name) =
        (passes c).find? fun p => Concerns name p :=
      List.find?_congr fun p hp => decide_eq_decide.mpr
        ⟨.inr, fun h => h.elim (fun h => ((hkeyIff p hp).mp h).2) id⟩
    rw [hkey, hnamed, if_neg hsemi]
    cases hfind : (passes c).find? fun p => Concerns name p with
    | none =>
      have hplain : ((passes c).find? fun p => p.bare = [] ∧ cookieName p.seg = some name) = none :=
        List.find?_eq_none.mpr fun p hp => by
          have hnot := List.find?_eq_none.mp hfind p hp
          simp only [decide_eq_true_eq] at hnot ⊢
          exact fun h => hnot (.inr h.2)
      rw [hplain]
      exact iff_of_true rfl nofun
    | some p =>
      have hmem := List.mem_of_find?_eq_some hfind
      have hconcerns : Concerns name p := by simpa using List.find?_some hfind
      have hname : cookieName p.seg = some name :=
        hconcerns.elim (fun h => ((hkeyIff p hmem).mp h).2) id
      constructor
      · rintro h q hq
        cases hq
        exact .inr h.symm
      · intro h
        rcases h p rfl with hbare | hval
        · rw [find_of_imp hfind (q := fun p => decide (p.bare = [] ∧ cookieName p.seg = some name))
            (decide_eq_true ⟨hbare, hname⟩) fun q hq => by
              have := of_decide_eq_true hq
              exact decide_eq_true (.inr this.2)]
        · exact hval.symm

/-- A cookie without `=` hides the session cookie behind it. -/
theorem getCookie_swallowed :
    ¬ ∀ (req : Request) (name : Str), getCookie req name = namedCookie name req.cookie := by
  intro h
  have hsession := h { cookie := "flag; sb_session=1f".toList } "sb_session".toList
  exact absurd hsession (by decide)

end StarBase.Api
