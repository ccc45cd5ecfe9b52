import StarBase.Lib.Glob
import StarBase.Scan.Pass
import StarBase.Scan.ScanRoot

/-!
# Ignored names

The walk of a directory tree leaves out what the list of ignored names matches, by an equality or by how
a name begins.  The list itself is written in globs.

* `Listing`, `walkFrom` — the tree, and the items the walk queues of it;
* `patterns`, `configured`, `listUsed` — the list as it is documented, and as the callers build it;
* `walkFrom_queue` — **PROVED**: the walk queues what it reaches of the frames and sidecars, less those
  under a name it matches;
* `honoured_iff` — **PROVED**: the globs are honoured exactly if, for each frame or sidecar, they match
  a component when the list in use does, and nothing is lost behind an error.
-/

namespace StarBase.Scan

open Extract

/-! ### The tree and the walk -/

/-- The entries of a directory as the iterator yields them, with those inside each directory that it
enters. -/
inductive Listing
  | done
  /-- The iterator reports an error, which leaves it at its end; it does not come to the rest. -/
  | broken (rest : Listing)
  /-- No directory, or a link to one, which is not entered. -/
  | entry (e : Pass.DirEntry) (next : Listing)
  | dir (name : Str) (inside next : Listing)

/-- The regular files, each by the components of its path below the root. -/
def Listing.files (dirs : List Str) : Listing → List (List Str)
  | .done => []
  | .broken rest => rest.files dirs
  | .entry e next => if e.isRegularFile then (dirs ++ [e.name]) :: next.files dirs else next.files dirs
  | .dir name inside next => inside.files (dirs ++ [name]) ++ next.files dirs

/-- The items queued, each with the components of its path, and whether the walk ended at an error. -/
structure Walked where
  queue : List (List Str × Pass.WorkItem)
  broke : Bool

def Walked.paths (w : Walked) : List (List Str) := w.queue.map Prod.fst

def walkFrom (ignore : List Str) (dirs : List Str) : Listing → Walked
  | .done => ⟨[], false⟩
  | .broken _ => ⟨[], true⟩
  | .entry e next =>
    let r := walkFrom ignore dirs next
    ⟨((Pass.offered ignore e).map fun w => (dirs ++ [e.name], w)).toList ++ r.queue, r.broke⟩
  | .dir name inside next =>
    if matchesIgnore name ignore then walkFrom ignore dirs next
    else
      let r := walkFrom ignore (dirs ++ [name]) inside
      if r.broke then r
      else
        let s := walkFrom ignore dirs next
        ⟨r.queue ++ s.queue, s.broke⟩

/-! ### The lists -/

/-- The list as it is documented: split at commas and newlines, trimmed. -/
def patterns (text : Str) : List Str :=
  ((text.splitOnP isGlobBreak).map (stripBoth isGlobBlank)).filter fun g => !g.isEmpty

/-- Who scans, with the default of the configuration. -/
inductive ScanCaller
  | cli (default : Str)
  | daemon (default : Str)

def ScanCaller.default : ScanCaller → Str
  | .cli text => text
  | .daemon text => text

/-- What the caller puts into `ScanConfig::ignore_globs`. -/
def ScanCaller.seed : ScanCaller → List Str
  | .cli text => ((text.splitOn ',').map (stripBoth fun c => c = ' ' || c = '\t')).filter fun g => !g.isEmpty
  | .daemon _ => []

/-- The list the scan of a root uses. -/
def listUsed (own : Str) (caller : ScanCaller) : List Str := effectiveIgnore own caller.seed

/-- The list that is configured: the root's own, or the default. -/
def configured (own : Str) (caller : ScanCaller) : List Str :=
  patterns (if own = [] then caller.default else own)

/-- A case-insensitive glob. -/
def GlobOf (name glob : Str) : Prop := Glob.Matches (lower glob) (lower name)

instance : DecidableRel GlobOf := fun _ _ => inferInstanceAs (Decidable (Glob.Matches _ _))

/-- What the list in use matches, a glob of the same text does. -/
theorem globOf_of_globMatches {name glob : Str} (h : globMatches name glob = true) : GlobOf name glob := by
  unfold globMatches at h
  unfold GlobOf
  dsimp only at h
  split at h
  · next hlast =>
    obtain ⟨init, hinit⟩ := List.getLast?_eq_some_iff.mp hlast
    rw [hinit, List.dropLast_concat] at h
    rw [hinit]
    exact Glob.matches_star_of_prefix (List.isPrefixOf_iff_prefix.mp h)
  · rw [of_decide_eq_true h]
    exact Glob.matches_self _

/-- Without an inner star they are the same. -/
theorem globMatches_iff_of_plain {name glob : Str} (hplain : '*' ∉ (lower glob).dropLast) :
    globMatches name glob = true ↔ GlobOf name glob := by
  refine ⟨globOf_of_globMatches, fun h => ?_⟩
  unfold GlobOf at h
  unfold globMatches
  dsimp only
  split
  · next hlast =>
    obtain ⟨init, hinit⟩ := List.getLast?_eq_some_iff.mp hlast
    rw [hinit, List.dropLast_concat] at hplain ⊢
    rw [hinit] at h
    exact List.isPrefixOf_iff_prefix.mpr ((Glob.matches_plain_star_iff hplain).mp h)
  · next hlast =>
    refine decide_eq_true ((Glob.matches_plain_iff fun hstar => ?_).mp h)
    rcases List.eq_nil_or_concat (lower glob) with hnil | ⟨init, c, hc⟩
    · rw [hnil] at hstar
      cases hstar
    · rw [List.concat_eq_append] at hc
      rw [hc, List.dropLast_concat] at hplain
      rw [hc, List.getLast?_concat] at hlast
      rw [hc] at hstar
      rcases List.mem_append.mp hstar with hinit | hlastc
      · exact hplain hinit
      · exact hlast (congrArg some (List.mem_singleton.mp hlastc).symm)

/-! ### What the walk comes to -/

/-- Some component of a path is matched by the list in use. -/
def dropped (ignore : List Str) (path : List Str) : Bool := path.any fun c => matchesIgnore c ignore

/-- A frame or a sidecar. -/
def taken (path : List Str) : Bool :=
  isIndexable (extension (path.getLast?.getD [])) ||
    !(Pass.artifactKindFor (extension (path.getLast?.getD []))).isEmpty

/-- The regular files up to the error that ends the walk, those it does not come to, and whether there is
such an error. -/
structure Reach where
  before : List (List Str)
  behind : List (List Str)
  broke : Bool
  deriving DecidableEq

def reach (ignore : List Str) (dirs : List Str) : Listing → Reach
  | .done => ⟨[], [], false⟩
  | .broken rest => ⟨[], rest.files dirs, true⟩
  | .entry e next =>
    let r := reach ignore dirs next
    ⟨if e.isRegularFile then (dirs ++ [e.name]) :: r.before else r.before, r.behind, r.broke⟩
  | .dir name inside next =>
    if matchesIgnore name ignore then
      let r := reach ignore dirs next
      ⟨inside.files (dirs ++ [name]) ++ r.before, r.behind, r.broke⟩
    else
      let r := reach ignore (dirs ++ [name]) inside
      if r.broke then ⟨r.before, r.behind ++ next.files dirs, true⟩
      else
        let s := reach ignore dirs next
        ⟨r.before ++ s.before, s.behind, s.broke⟩

section Reach

variable {ignore : List Str}

theorem files_dir (dirs : List Str) (name : Str) (inside next : Listing) :
    (Listing.dir name inside next).files dirs = inside.files (dirs ++ [name]) ++ next.files dirs := rfl

theorem reach_pruned {dirs : List Str} {name : Str} {inside next : Listing}
    (h : matchesIgnore name ignore = true) : reach ignore dirs (.dir name inside next) =
      ⟨inside.files (dirs ++ [name]) ++ (reach ignore dirs next).before, (reach ignore dirs next).behind,
        (reach ignore dirs next).broke⟩ :=
  if_pos h

theorem reach_broke {dirs : List Str} {name : Str} {inside next : Listing}
    (h : matchesIgnore name ignore = false) (hb : (reach ignore (dirs ++ [name]) inside).broke = true) :
    reach ignore dirs (.dir name inside next) = ⟨(reach ignore (dirs ++ [name]) inside).before,
      (reach ignore (dirs ++ [name]) inside).behind ++ next.files dirs, true⟩ := by
  have hno : ¬matchesIgnore name ignore = true := by rw [h]; exact Bool.false_ne_true
  exact (if_neg hno).trans (if_pos hb)

theorem reach_read {dirs : List Str} {name : Str} {inside next : Listing}
    (h : matchesIgnore name ignore = false) (hb : (reach ignore (dirs ++ [name]) inside).broke = false) :
    reach ignore dirs (.dir name inside next) =
      ⟨(reach ignore (dirs ++ [name]) inside).before ++ (reach ignore dirs next).before,
        (reach ignore dirs next).behind, (reach ignore dirs next).broke⟩ := by
  have hno : ¬matchesIgnore name ignore = true := by rw [h]; exact Bool.false_ne_true
  have hnob : ¬(reach ignore (dirs ++ [name]) inside).broke = true := by rw [hb]; exact Bool.false_ne_true
  exact (if_neg hno).trans (if_neg hnob)

theorem reach_behind {dirs : List Str} {l : Listing} (h : (reach ignore dirs l).broke = false) :
    (reach ignore dirs l).behind = [] := by
  induction l generalizing dirs with
  | done => rfl
  | broken rest ih => cases h
  | entry e next ih => exact ih h
  | dir name inside next ihi ihn =>
    cases hm : matchesIgnore name ignore with
    | true =>
      rw [reach_pruned hm] at h ⊢
      exact ihn h
    | false =>
      cases hb : (reach ignore (dirs ++ [name]) inside).broke with
      | true =>
        rw [reach_broke hm hb] at h
        cases h
      | false =>
        rw [reach_read hm hb] at h ⊢
        exact ihn h

/-- The files are those before and those behind. -/
theorem reach_files (ignore : List Str) (dirs : List Str) (l : Listing) :
    (reach ignore dirs l).before ++ (reach ignore dirs l).behind = l.files dirs := by
  induction l generalizing dirs with
  | done => rfl
  | broken rest ih => rfl
  | entry e next ih =>
    have hnext := ih dirs
    show (if e.isRegularFile then (dirs ++ [e.name]) :: (reach ignore dirs next).before
      else (reach ignore dirs next).before) ++ (reach ignore dirs next).behind
        = if e.isRegularFile then (dirs ++ [e.name]) :: next.files dirs else next.files dirs
    cases e.isRegularFile with
    | true => exact congrArg _ hnext
    | false => exact hnext
  | dir name inside next ihi ihn =>
    rw [files_dir]
    cases hm : matchesIgnore name ignore with
    | true => rw [reach_pruned hm, List.append_assoc, ihn]
    | false =>
      cases hb : (reach ignore (dirs ++ [name]) inside).broke with
      | true => rw [reach_broke hm hb, ← List.append_assoc, ihi]
      | false =>
        have hinside := ihi (dirs ++ [name])
        rw [reach_behind hb, List.append_nil] at hinside
        rw [reach_read hm hb, List.append_assoc, ihn, hinside]

/-- The path of a file begins with its directory. -/
theorem prefix_of_mem_files {dirs p : List Str} {l : Listing} (h : p ∈ l.files dirs) : dirs <+: p := by
  induction l generalizing dirs with
  | done => cases h
  | broken rest ih => exact ih h
  | entry e next ih =>
    unfold Listing.files at h
    split at h
    · rcases List.mem_cons.mp h with rfl | h
      · exact List.prefix_append dirs [e.name]
      · exact ih h
    · exact ih h
  | dir name inside next ihi ihn =>
    rcases List.mem_append.mp h with h | h
    · exact (List.prefix_append dirs [name]).trans (ihi h)
    · exact ihn h

/-- A frame or sidecar that no component takes away. -/
def kept (ignore : List Str) (path : List Str) : Bool := taken path && !dropped ignore path

theorem dropped_concat {dirs : List Str} (h : dropped ignore dirs = false) (name : Str) :
    dropped ignore (dirs ++ [name]) = matchesIgnore name ignore := by
  unfold dropped at h ⊢
  rw [List.any_append, h, Bool.false_or]
  exact Bool.or_false _

/-- Below a name that is matched, nothing is kept. -/
theorem filter_kept_files {dirs : List Str} {name : Str} (h : matchesIgnore name ignore = true)
    (l : Listing) : (l.files (dirs ++ [name])).filter (kept ignore) = [] := by
  refine List.filter_eq_nil_iff.mpr fun p hp => ?_
  obtain ⟨rest, rfl⟩ := prefix_of_mem_files hp
  unfold kept dropped
  simp [h]

/-- An entry is queued if it is a frame or sidecar that is kept. -/
theorem offered_path {dirs : List Str} (hdirs : dropped ignore dirs = false) (e : Pass.DirEntry) :
    ((Pass.offered ignore e).map fun w => (dirs ++ [e.name], w)).toList.map Prod.fst
      = (if e.isRegularFile then [dirs ++ [e.name]] else []).filter (kept ignore) := by
  have hkept : kept ignore (dirs ++ [e.name]) = (taken (dirs ++ [e.name]) && !matchesIgnore e.name ignore) := by
    unfold kept
    rw [dropped_concat hdirs]
  unfold Pass.offered
  cases hregular : e.isRegularFile with
  | false => simp
  | true =>
    rw [if_pos rfl, List.filter_singleton, hkept]
    unfold taken
    rw [List.getLast?_concat]
    dsimp only [Option.getD_some]
    cases hm : matchesIgnore e.name ignore with
    | true => simp
    | false =>
      by_cases hframe : isIndexable (extension e.name) = true
      · simp [hframe]
      · by_cases hkind : Pass.artifactKindFor (extension e.name) = []
        · simp [hframe, hkind]
        · have hnonempty : (Pass.artifactKindFor (extension e.name)).isEmpty = false :=
            List.isEmpty_eq_false_iff.mpr hkind
          simp [hframe, hkind, hnonempty]

/-- **PROVED**: the walk queues what it reaches of the frames and sidecars, less those under a name the
list matches. -/
theorem walkFrom_queue {dirs : List Str} (hdirs : dropped ignore dirs = false) (l : Listing) :
    (walkFrom ignore dirs l).broke = (reach ignore dirs l).broke ∧
      (walkFrom ignore dirs l).paths = (reach ignore dirs l).before.filter (kept ignore) := by
  induction l generalizing dirs with
  | done => exact ⟨rfl, rfl⟩
  | broken rest ih => exact ⟨rfl, rfl⟩
  | entry e next ih =>
    obtain ⟨hbroke, hqueue⟩ := ih hdirs
    have hbefore : (reach ignore dirs (.entry e next)).before
        = (if e.isRegularFile then [dirs ++ [e.name]] else []) ++ (reach ignore dirs next).before := by
      show (if e.isRegularFile then (dirs ++ [e.name]) :: (reach ignore dirs next).before
        else (reach ignore dirs next).before) = _
      cases e.isRegularFile <;> rfl
    refine ⟨hbroke, ?_⟩
    rw [hbefore, List.filter_append, ← offered_path hdirs e, ← hqueue]
    exact List.map_append
  | dir name inside next ihi ihn =>
    obtain ⟨hbroke, hqueue⟩ := ihn hdirs
    unfold walkFrom
    cases hm : matchesIgnore name ignore with
    | true =>
      rw [reach_pruned hm, List.filter_append, filter_kept_files hm]
      exact ⟨hbroke, hqueue⟩
    | false =>
      obtain ⟨hbrokei, hqueuei⟩ := ihi ((dropped_concat hdirs name).trans hm)
      cases hb : (reach ignore (dirs ++ [name]) inside).broke with
      | true =>
        rw [reach_broke hm hb]
        rw [hb] at hbrokei
        dsimp only
        rw [if_neg Bool.false_ne_true, if_pos hbrokei]
        exact ⟨hbrokei, hqueuei⟩
      | false =>
        rw [reach_read hm hb, List.filter_append, ← hqueue, ← hqueuei, ← hbroke]
        rw [hb] at hbrokei
        dsimp only
        rw [if_neg Bool.false_ne_true, hbrokei, if_neg Bool.false_ne_true]
        exact ⟨rfl, List.map_append⟩

end Reach

/-! ### When the globs are honoured -/

/-- Some component of a path matches a configured glob. -/
def globbed (globs : List Str) (path : List Str) : Bool :=
  path.any fun c => globs.any fun g => decide (GlobOf c g)

/-- No file below a name that matches a configured glob is queued, and every other frame or sidecar is,
once. -/
def Honoured (own : Str) (caller : ScanCaller) (tree : Listing) : Prop :=
  (walkFrom (listUsed own caller) [] tree).paths.Perm
    ((tree.files []).filter fun p => taken p && !globbed (configured own caller) p)

/-- What the list in use leaves out, its globs do. -/
theorem globbed_of_dropped {globs : List Str} {path : List Str} (h : dropped globs path = true) :
    globbed globs path = true := by
  unfold dropped matchesIgnore at h
  unfold globbed
  simp only [List.any_eq_true, decide_eq_true_eq] at h ⊢
  obtain ⟨c, hc, g, hg, hmatch⟩ := h
  exact ⟨c, hc, g, hg, globOf_of_globMatches hmatch⟩

/-- Globs without an inner star leave out what the list in use does. -/
theorem dropped_eq_globbed {globs : List Str} (hplain : ∀ g ∈ globs, '*' ∉ (lower g).dropLast)
    (path : List Str) : dropped globs path = globbed globs path := by
  refine Bool.eq_iff_iff.mpr ⟨globbed_of_dropped, fun h => ?_⟩
  unfold globbed at h
  unfold dropped matchesIgnore
  simp only [List.any_eq_true, decide_eq_true_eq] at h ⊢
  obtain ⟨c, hc, g, hg, hmatch⟩ := h
  exact ⟨c, hc, g, hg, (globMatches_iff_of_plain (hplain g hg)).mpr hmatch⟩

/-- One part of a list, filtered one way, is the whole list filtered another way exactly if the two agree
on the part and nothing of the rest passes. -/
theorem filter_perm_filter_append_iff {α : Type} {p q : α → Bool} {l r : List α} :
    (l.filter p).Perm ((l ++ r).filter q) ↔ (∀ a ∈ l, p a = q a) ∧ ∀ a ∈ r, q a = false := by
  constructor
  · intro h
    have hl : ∀ a ∈ l, p a = q a := fun a ha => by
      have hmem : a ∈ l.filter p ↔ a ∈ (l ++ r).filter q := h.mem_iff
      rw [List.mem_filter, List.mem_filter, and_iff_right ha,
        and_iff_right (List.mem_append_left r ha)] at hmem
      exact Bool.eq_iff_iff.mpr hmem
    have hlen := h.length_eq
    rw [List.filter_append, List.length_append, List.filter_congr hl] at hlen
    have hrest : r.filter q = [] := List.length_eq_zero_iff.mp (by omega)
    exact ⟨hl, fun a ha => by simpa using List.filter_eq_nil_iff.mp hrest a ha⟩
  · rintro ⟨hl, hr⟩
    have hrest : r.filter q = [] := List.filter_eq_nil_iff.mpr fun a ha => by simp [hr a ha]
    rw [List.filter_append, List.filter_congr hl, hrest, List.append_nil]

/-- **PROVED: when the ignored globs are honoured.** Exactly if each frame or sidecar the walk comes to
has a component that a configured glob matches when it has one that the list in use matches, and those
behind a read error all match a glob. -/
theorem honoured_iff (own : Str) (caller : ScanCaller) (tree : Listing) :
    Honoured own caller tree ↔
      (∀ p ∈ (reach (listUsed own caller) [] tree).before, taken p = true →
        (dropped (listUsed own caller) p = true ↔ globbed (configured own caller) p = true)) ∧
      ∀ p ∈ (reach (listUsed own caller) [] tree).behind, taken p = true →
        globbed (configured own caller) p = true := by
  have hfiles := reach_files (listUsed own caller) [] tree
  unfold Honoured
  rw [(walkFrom_queue rfl tree).2, ← hfiles, filter_perm_filter_append_iff]
  refine and_congr (forall₂_congr fun p _ => ?_) (forall₂_congr fun p _ => ?_)
  · unfold kept
    cases taken p <;> simp
  · cases taken p <;> simp

/-- Globs without an inner star are honoured in a tree that is read to its end. -/
theorem honoured_of_plain {own : Str} {caller : ScanCaller} {tree : Listing}
    (hlist : listUsed own caller = configured own caller)
    (hplain : ∀ g ∈ configured own caller, '*' ∉ (lower g).dropLast)
    (hread : (reach (listUsed own caller) [] tree).broke = false) : Honoured own caller tree := by
  have hfiles := reach_files (listUsed own caller) [] tree
  unfold Honoured
  rw [(walkFrom_queue rfl tree).2, ← hfiles, filter_perm_filter_append_iff, reach_behind hread, hlist]
  refine ⟨fun p _ => ?_, nofun⟩
  unfold kept
  rw [dropped_eq_globbed hplain]

/-! ### The default globs -/

/-- The default of the configuration. -/
def defaultIgnoreGlobs : Str :=
  ("_gsdata_,*.tmp,*.part,*.partial,Thumbs.db,desktop.ini," ++
    "System Volume Information,$RECYCLE.BIN,.DS_Store,._*,.zfs").toList

/-- A frame in a directory that is still written under another name. -/
def partialNight : Listing :=
  .dir "night.tmp".toList (.entry ⟨"/r/night.tmp/a.fits".toList, "a.fits".toList, true,
    some "night.tmp/a.fits".toList⟩ .done) .done

/-- A directory that matches `*.tmp` is walked all the same. -/
theorem default_not_honoured : ¬Honoured [] (.cli defaultIgnoreGlobs) partialNight := by
  unfold Honoured
  decide +kernel

end StarBase.Scan
