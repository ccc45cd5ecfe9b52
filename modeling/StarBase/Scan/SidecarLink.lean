import StarBase.Lib.LastPart
import StarBase.Query.Builder
import StarBase.Query.FilterRead
import StarBase.Query.Select

/-!
# Sidecars and their frames

The last pass of a scan gives each sidecar without a frame the first frame whose path begins with the
sidecar's directory, its stem and a dot.

* `sidecarDir`, `sidecarStem`, `sidecarPattern` — what the query asks for, through both escapings;
* `link`, `linkPass` — the pass;
* `like_sidecarPattern_iff` — **PROVED**: the query asks for a beginning of the path, under the collation;
* `linkPass_own_iff` — **PROVED**: the sidecars are linked to their own frames exactly if the first frame
  whose path begins so goes on with an extension only.

Columns of `artifacts` that the statement does not read are left out.
-/

namespace StarBase.Scan

open Relational Extract Query

/-! ### The query -/

/-- `relp.substr(0, slash + 1)`. -/
def sidecarDir (relPath : Str) : Str := LastPart.upTo '/' relPath

/-- `fname.substr(0, dot)`, or the whole name without a dot. -/
def sidecarStem (filename : Str) : Str :=
  if '.' ∈ filename then (LastPart.upTo '.' filename).dropLast else filename

abbrev escapeLike : Str → Str := Like.escape

/-- The character a backslash and `c` stand for in a literal; `LIKE`'s own escapes stay. -/
def unescaped (c : Char) : Str :=
  if c = '0' then [Char.ofNat 0]
  else if c = 'b' then [Char.ofNat 8]
  else if c = 'n' then ['\n']
  else if c = 'r' then ['\r']
  else if c = 't' then ['\t']
  else if c = 'Z' then [Char.ofNat 26]
  else if c = '%' ∨ c = '_' then ['\\', c]
  else [c]

/-- What the server reads between quotation marks, in which each quotation mark is escaped. -/
def literalText : Str → Str
  | [] => []
  | ['\\'] => []
  | '\\' :: c :: s => unescaped c ++ literalText s
  | c :: s => c :: literalText s

theorem literalText_plain {c : Char} (h : c ≠ '\\') (s : Str) : literalText (c :: s) = c :: literalText s := by
  rw [literalText]
  · rintro rfl
    exact absurd rfl h
  · rintro d t rfl
    exact absurd rfl h

/-- The server reads what was escaped. -/
theorem literalText_escape (s t : Str) : literalText (s.flatMap escapeChar ++ t) = s ++ literalText t := by
  induction s with
  | nil => rfl
  | cons c s ih =>
    have hcode : ∀ n : ℕ, c.toNat = n → c = Char.ofNat n := fun n h => by rw [← h, Char.ofNat_toNat]
    rw [List.flatMap_cons, List.append_assoc]
    unfold escapeChar
    split
    · next hc =>
      show unescaped c ++ literalText (s.flatMap escapeChar ++ t) = _
      rw [ih]
      rcases hc with rfl | rfl | rfl <;> rfl
    · next hc =>
      push Not at hc
      split
      · next h0 =>
        rw [hcode 0 h0]
        exact congrArg _ ih
      · split
        · next hn =>
          rw [hn]
          exact congrArg _ ih
        · split
          · next hr =>
            rw [hr]
            exact congrArg _ ih
          · split
            · next hz =>
              rw [hcode 26 hz]
              exact congrArg _ ih
            · rw [List.singleton_append, literalText_plain hc.2.2]
              exact congrArg _ ih

/-- The pattern of the query, as the server reads it. -/
def sidecarPattern (dir stem : Str) : Str :=
  literalText ((escapeLike (dir ++ stem)).flatMap escapeChar ++ ".%".toList)

theorem sidecarPattern_eq (dir stem : Str) :
    sidecarPattern dir stem = Like.escape (dir ++ stem ++ ['.']) ++ ['%'] := by
  have hdot : Like.escape (dir ++ stem ++ ['.']) = Like.escape (dir ++ stem) ++ ['.'] := List.flatMap_append
  unfold sidecarPattern
  rw [literalText_escape, hdot, List.append_assoc]
  rfl

/-- The query asks for how a path begins. -/
theorem like_sidecarPattern_iff (C : Collation) (dir stem path : Str) :
    C.like path (sidecarPattern dir stem) = true ↔ C.weights (dir ++ stem ++ ['.']) <+: C.weights path := by
  unfold Collation.like
  rw [sidecarPattern_eq]
  exact Like.fits_escape_iff C.weight

/-! ### The pass -/

section Pass

variable [Host]

/-- A row of `artifacts`; its name is that of a file. -/
structure Artifact where
  id : ℕ
  rootId : ℕ
  relPath : Str
  filename : Str
  frameId : Option ℕ
  name_plain : '/' ∉ filename
  deriving DecidableEq

/-- `fl.root_id = root AND fl.format IN ('fits','xisf') AND fl.rel_path LIKE ..` -/
def fileMatches (C : Collation) (root : ℕ) (a : Artifact) (fl : FileRow) : Bool :=
  fl.rootId = root && (fl.format = .fits || fl.format = .xisf) &&
    C.like fl.relPath (sidecarPattern (sidecarDir a.relPath) (sidecarStem a.filename))

/-- The ids the query finds, `frames` joined with `files`. -/
def foundFrames (C : Collation) (db : IndexDb) (root : ℕ) (a : Artifact) : List ℕ :=
  (db.frames.rows.filter fun fr => db.files.rows.any fun fl => fr.fileId = fl.id && fileMatches C root a fl).map
    FrameRow.id

/-- A sidecar after the pass: `ORDER BY fr.id LIMIT 1`. -/
def link (C : Collation) (db : IndexDb) (root : ℕ) (a : Artifact) : Artifact :=
  if a.rootId = root ∧ a.frameId = none then { a with frameId := (foundFrames C db root a).min? } else a

def linkPass (C : Collation) (db : IndexDb) (root : ℕ) (arts : List Artifact) : List Artifact :=
  arts.map (link C db root)

/-! ### A sidecar's own frame -/

def baseName (relPath : Str) : Str := LastPart.behind '/' relPath

/-- A frame of a file of the root, in the same directory and with the same stem. -/
def OwnFrame (db : IndexDb) (root : ℕ) (a : Artifact) (fr : FrameRow) : Prop :=
  ∃ fl ∈ db.files.rows, fr.fileId = fl.id ∧ fl.rootId = root ∧
    sidecarDir fl.relPath = sidecarDir a.relPath ∧ sidecarStem (baseName fl.relPath) = sidecarStem a.filename

/-- Linked to an own frame only, and to one whenever there is one. -/
def LinkedToOwn (db : IndexDb) (root : ℕ) (a a' : Artifact) : Prop :=
  (∀ i ∈ a'.frameId, ∃ fr ∈ db.frames.rows, fr.id = i ∧ OwnFrame db root a fr) ∧
    ((∃ fr ∈ db.frames.rows, OwnFrame db root a fr) → a'.frameId.isSome = true)

/-- A path that begins, under the collation, with a sidecar's directory, its stem and a dot. -/
def BeginsAlike (C : Collation) (a : Artifact) (path : Str) : Prop :=
  C.weights (sidecarDir a.relPath ++ sidecarStem a.filename ++ ['.']) <+: C.weights path

/-- A path that does so literally, and goes on with an extension. -/
def GoesOn (a : Artifact) (path : Str) : Prop :=
  ∃ ext, path = sidecarDir a.relPath ++ sidecarStem a.filename ++ '.' :: ext ∧ '.' ∉ ext ∧ '/' ∉ ext

omit [Host] in
theorem stem_append {stem ext : Str} (h : '.' ∉ ext) : sidecarStem (stem ++ '.' :: ext) = stem := by
  have hclosed : LastPart.Closed '.' (stem ++ ['.']) := .inr ⟨stem, rfl⟩
  have hup := (LastPart.upTo_append hclosed h).1
  unfold sidecarStem
  rw [if_pos (List.mem_append_right _ List.mem_cons_self)]
  rw [List.append_assoc, List.singleton_append] at hup
  rw [hup, List.dropLast_concat]

omit [Host] in
/-- A name is its stem and its extension. -/
theorem exists_ext {name : Str} (h : '.' ∈ name) : ∃ ext, name = sidecarStem name ++ '.' :: ext ∧ '.' ∉ ext := by
  have hsplit := LastPart.upTo_append_behind '.' name
  rcases LastPart.closed_upTo '.' name with hnil | ⟨u, hu⟩
  · exact absurd (LastPart.upTo_eq_nil_iff.mp hnil) (not_not.mpr h)
  · refine ⟨LastPart.behind '.' name, ?_, LastPart.not_mem_behind⟩
    unfold sidecarStem
    rw [if_pos h, hu, List.dropLast_concat]
    rw [hu, List.append_assoc] at hsplit
    exact hsplit.symm

omit [Host] in
theorem stem_begins (name : Str) : sidecarStem name <+: name := by
  unfold sidecarStem
  split
  · exact (List.dropLast_prefix _).trans (List.rdropWhile_prefix _ _)
  · exact List.prefix_refl name

omit [Host] in
/-- The own frames of a sidecar by their paths. -/
theorem goesOn_iff {a : Artifact} {path : Str} (hdot : '.' ∈ baseName path) :
    GoesOn a path ↔
      sidecarDir path = sidecarDir a.relPath ∧ sidecarStem (baseName path) = sidecarStem a.filename := by
  constructor
  · rintro ⟨ext, hpath, hdots, hslash⟩
    have hname : '/' ∉ sidecarStem a.filename ++ '.' :: ext := by
      intro h
      rcases List.mem_append.mp h with h | h
      · exact a.name_plain ((stem_begins _).subset h)
      · rcases List.mem_cons.mp h with h | h
        · exact absurd h (by decide)
        · exact hslash h
    have hcut := LastPart.upTo_append (LastPart.closed_upTo '/' a.relPath) hname
    rw [← List.append_assoc] at hcut
    unfold sidecarDir baseName
    rw [hpath]
    refine ⟨hcut.1, ?_⟩
    unfold sidecarDir
    rw [hcut.2, stem_append hdots]
  · rintro ⟨hdir, hstem⟩
    obtain ⟨ext, hname, hdots⟩ := exists_ext hdot
    have hpath : sidecarDir path ++ baseName path = path := LastPart.upTo_append_behind '/' path
    rw [hstem] at hname
    refine ⟨ext, ?_, hdots, fun h => ?_⟩
    · rw [List.append_assoc, ← hname, ← hdir, hpath]
    · have hmem : '/' ∈ baseName path := by
        rw [hname]
        exact List.mem_append_right _ (List.mem_cons_of_mem _ h)
      exact LastPart.not_mem_behind hmem

/-! ### Which frame is linked -/

/-- Frames are those of files in the two formats, whose names have an extension. -/
def Framed (db : IndexDb) : Prop :=
  ∀ fr ∈ db.frames.rows, ∀ fl ∈ db.files.rows, fr.fileId = fl.id →
    (fl.format = .fits ∨ fl.format = .xisf) ∧ '.' ∈ baseName fl.relPath

/-- A frame of a file of the root whose path begins as a sidecar's own would. -/
structure Candidate (C : Collation) (db : IndexDb) (root : ℕ) (a : Artifact) (fr : FrameRow) (fl : FileRow) :
    Prop where
  frame : fr ∈ db.frames.rows
  file : fl ∈ db.files.rows
  joined : fr.fileId = fl.id
  root_eq : fl.rootId = root
  begins : BeginsAlike C a fl.relPath

variable {C : Collation} {db : IndexDb} {root : ℕ} {a : Artifact}

theorem mem_foundFrames (hdb : Framed db) {i : ℕ} :
    i ∈ foundFrames C db root a ↔ ∃ fr fl, Candidate C db root a fr fl ∧ fr.id = i := by
  unfold foundFrames
  rw [List.mem_map]
  constructor
  · rintro ⟨fr, hfr, rfl⟩
    obtain ⟨hframe, hany⟩ := List.mem_filter.mp hfr
    obtain ⟨fl, hfile, hmatch⟩ := List.any_eq_true.mp hany
    unfold fileMatches at hmatch
    simp only [Bool.and_eq_true, decide_eq_true_eq] at hmatch
    obtain ⟨hjoined, ⟨hroot, -⟩, hlike⟩ := hmatch
    exact ⟨fr, fl, ⟨hframe, hfile, hjoined, hroot, (like_sidecarPattern_iff C _ _ _).mp hlike⟩, rfl⟩
  · rintro ⟨fr, fl, hc, rfl⟩
    refine ⟨fr, List.mem_filter.mpr ⟨hc.frame, List.any_eq_true.mpr ⟨fl, hc.file, ?_⟩⟩, rfl⟩
    have hlike := (like_sidecarPattern_iff C (sidecarDir a.relPath) (sidecarStem a.filename) fl.relPath).mpr
      hc.begins
    have hformat := (hdb fr hc.frame fl hc.file hc.joined).1
    unfold fileMatches
    simp only [Bool.and_eq_true, Bool.or_eq_true, decide_eq_true_eq]
    exact ⟨hc.joined, ⟨hc.root_eq, hformat⟩, hlike⟩

/-- An own frame is a candidate, one that goes on with an extension. -/
theorem ownFrame_iff (C : Collation) (hdb : Framed db) {fr : FrameRow} (hfr : fr ∈ db.frames.rows) :
    OwnFrame db root a fr ↔ ∃ fl, Candidate C db root a fr fl ∧ GoesOn a fl.relPath := by
  constructor
  · rintro ⟨fl, hfl, hjoined, hroot, hown⟩
    obtain ⟨ext, hpath, hext⟩ := (goesOn_iff (hdb fr hfr fl hfl hjoined).2).mpr hown
    refine ⟨fl, ⟨hfr, hfl, hjoined, hroot, ?_⟩, ext, hpath, hext⟩
    unfold BeginsAlike Collation.weights
    rw [hpath]
    exact (List.prefix_append_right_inj _).mpr (List.prefix_append ['.'] ext) |>.map C.weight
  · rintro ⟨fl, hc, hgoes⟩
    exact ⟨fl, hc.file, hc.joined, hc.root_eq, (goesOn_iff (hdb fr hfr fl hc.file hc.joined).2).mp hgoes⟩

/-- The first candidate is linked. -/
theorem link_own_iff (hdb : Framed db) (hroot : a.rootId = root) (hnone : a.frameId = none) :
    LinkedToOwn db root a (link C db root a) ↔
      ∀ fr fl, Candidate C db root a fr fl →
        (∀ fr' fl', Candidate C db root a fr' fl' → fr.id ≤ fr'.id) → GoesOn a fl.relPath := by
  have hlink : (link C db root a).frameId = (foundFrames C db root a).min? := by
    unfold link
    rw [if_pos ⟨hroot, hnone⟩]
  unfold LinkedToOwn
  rw [hlink]
  constructor
  · rintro ⟨hown, -⟩ fr fl hc hleast
    have hmin : (foundFrames C db root a).min? = some fr.id :=
      List.min?_eq_some_iff.mpr ⟨(mem_foundFrames hdb).mpr ⟨fr, fl, hc, rfl⟩, fun i hi => by
        obtain ⟨fr', fl', hc', rfl⟩ := (mem_foundFrames hdb).mp hi
        exact hleast fr' fl' hc'⟩
    obtain ⟨fr', hfr', hid, hown'⟩ := hown fr.id hmin
    have hsame : fr' = fr := db.frames.eq_of_id hfr' hc.frame hid
    rw [hsame] at hown'
    obtain ⟨fl', hc', hgoes⟩ := (ownFrame_iff C hdb hc.frame).mp hown'
    have hfl : fl' = fl := db.files.eq_of_id hc'.file hc.file (hc'.joined.symm.trans hc.joined)
    rw [hfl] at hgoes
    exact hgoes
  · intro h
    refine ⟨fun i hi => ?_, fun ⟨fr, hfr, hown⟩ => ?_⟩
    · obtain ⟨hmem, hleast⟩ := List.min?_eq_some_iff.mp hi
      obtain ⟨fr, fl, hc, rfl⟩ := (mem_foundFrames hdb).mp hmem
      refine ⟨fr, hc.frame, rfl, (ownFrame_iff C hdb hc.frame).mpr ⟨fl, hc, h fr fl hc fun fr' fl' hc' => ?_⟩⟩
      exact hleast fr'.id ((mem_foundFrames hdb).mpr ⟨fr', fl', hc', rfl⟩)
    · obtain ⟨fl, hc, -⟩ := (ownFrame_iff C hdb hfr).mp hown
      exact List.isSome_min?_of_mem ((mem_foundFrames hdb).mpr ⟨fr, fl, hc, rfl⟩)

/-- **PROVED: when the sidecars are linked to their own frames.** Exactly if, for each sidecar without a
frame, the first frame whose path begins with its directory, its stem and a dot under the collation does
so literally and goes on with an extension. -/
theorem linkPass_own_iff (C : Collation) {db : IndexDb} (root : ℕ) (arts : List Artifact) (hdb : Framed db) :
    List.Forall₂ (fun a a' => a.rootId = root → a.frameId = none → LinkedToOwn db root a a') arts
        (linkPass C db root arts) ↔
      ∀ a ∈ arts, a.rootId = root → a.frameId = none → ∀ fr fl, Candidate C db root a fr fl →
        (∀ fr' fl', Candidate C db root a fr' fl' → fr.id ≤ fr'.id) → GoesOn a fl.relPath := by
  unfold linkPass
  rw [List.forall₂_map_right_iff, List.forall₂_same]
  exact forall₂_congr fun a _ => forall₂_congr fun hroot hnone => link_own_iff hdb hroot hnone

end Pass

/-! ### Two frames of one night -/

section Night

attribute [local instance] plainHost

/-- The frame of a numbered exposure was indexed before the one without a number. -/
def numberedFirst : IndexDb where
  files := ((Table.empty fileKeying).upsert _ (Action.indexedFile "night/frame.001.fits".toList
    "frame.001.fits".toList) missingRow).upsert _ (Action.indexedFile "night/frame.fits".toList
    "frame.fits".toList) missingRow
  frames := ((Table.empty frameKeying).upsert _ (newFrame 1 bareHdu {} {}) (storedFrame bareHdu {} {})).upsert _
    (newFrame 2 bareHdu {} {}) (storedFrame bareHdu {} {})
  keywords := []
  cameras := Table.empty nameKeying
  filters := Table.empty nameKeying
  operator := {}
  frameTags := []
  collectionFrames := []
  frames_fk := by decide

def sidecar (relPath filename : Str) (h : '/' ∉ filename) : Artifact := ⟨1, 1, relPath, filename, none, h⟩

def numberedSidecar : Artifact := sidecar "night/frame.001.txt".toList "frame.001.txt".toList (by decide)

def plainSidecar : Artifact := sidecar "night/frame.txt".toList "frame.txt".toList (by decide)

theorem numberedFirst_framed : Framed numberedFirst := by
  unfold Framed
  decide

/-- The sidecar of the numbered exposure has no other candidate. -/
theorem linkPass_own_numbered : List.Forall₂
    (fun a a' => a.rootId = 1 → a.frameId = none → LinkedToOwn numberedFirst 1 a a') [numberedSidecar]
    (linkPass foldCase numberedFirst 1 [numberedSidecar]) := by
  refine (linkPass_own_iff foldCase 1 [numberedSidecar] numberedFirst_framed).mpr
    fun a ha _ _ fr fl hc _ => ?_
  rw [List.mem_singleton.mp ha] at hc ⊢
  have hfile : fl.relPath = "night/frame.001.fits".toList ∨ fl.relPath = "night/frame.fits".toList := by
    have hall : ∀ f ∈ numberedFirst.files.rows, f.relPath = "night/frame.001.fits".toList ∨
        f.relPath = "night/frame.fits".toList := by decide
    exact hall fl hc.file
  rcases hfile with h | h
  · exact ⟨"fits".toList, h, by decide, by decide⟩
  · have hbegins := hc.begins
    unfold BeginsAlike at hbegins
    rw [h] at hbegins
    exact absurd hbegins (by decide)

/-- The sidecar `frame.txt` is linked to `frame.001.fits`, though `frame.fits` is there. -/
theorem plainSidecar_misled : ¬List.Forall₂
    (fun a a' => a.rootId = 1 → a.frameId = none → LinkedToOwn numberedFirst 1 a a') [plainSidecar]
    (linkPass foldCase numberedFirst 1 [plainSidecar]) := by
  intro h
  have hone := (List.forall₂_cons.mp h).1 rfl rfl
  have hlinked : (link foldCase numberedFirst 1 plainSidecar).frameId = some 1 := by decide
  obtain ⟨fr, hfr, hid, fl, hfl, hjoined, -, -, hstem⟩ := hone.1 1 hlinked
  have hall : ∀ f ∈ numberedFirst.frames.rows, f.id = 1 → ∀ g ∈ numberedFirst.files.rows,
      f.fileId = g.id → sidecarStem (baseName g.relPath) ≠ sidecarStem plainSidecar.filename := by decide
  exact hall fr hfr hid fl hfl hjoined hstem

end Night

end StarBase.Scan
