import StarBase.Action
import StarBase.Extract.Digits
import StarBase.Lib.Csv
import StarBase.Util.MountTable

/-!
# Exporting a set of frames

`export_frames` writes a set as a list of paths, as JSON or as comma-separated values.  A value is put
between quotation marks if it has a comma or a quotation mark.

* `quoteIfNeeded`, `csvLine`, `exportFrames` — the text;
* `ReadsBack` — the two texts are read as the frames they were written from;
* `Kept` — a value with a line break is quoted for another reason;
* `exportFrames_readsBack_iff` — **PROVED**: the texts are read back if and only if names and paths are
  kept.

The writer of the JSON text is a parameter.
-/

namespace StarBase.Action

open Extract Csv

/-! ### The text -/

/-- The lambda `q`. -/
def quoteIfNeeded (s : Str) : Str :=
  if s.contains ',' || s.contains '"' then
    '"' :: (s.flatMap fun c => if c = '"' then ['"', c] else [c]) ++ ['"']
  else s

def csvLine (f : FrameRef) : Str :=
  natText f.frameId ++ [','] ++ f.imageType ++ [','] ++ quoteIfNeeded f.filename ++ [','] ++
    quoteIfNeeded f.absPath ++ ['\n']

def frameJson (f : FrameRef) : Json :=
  .obj [("frame_id".toList, .int f.frameId), ("image_type".toList, .str f.imageType),
    ("filename".toList, .str f.filename), ("path".toList, .str f.absPath)]

/-- `dump` is the writer of the JSON library, which throws on bytes that are no UTF-8. -/
def exportFrames (dump : Json → Except Thrown Str) (frames : List FrameRef) (format : Str) :
    Except Thrown Str :=
  if format = "paths".toList then .ok (frames.flatMap fun f => f.absPath ++ ['\n'])
  else if format = "json".toList then dump (.arr (frames.map frameJson))
  else .ok ("frame_id,image_type,filename,path\n".toList ++ frames.flatMap csvLine)

/-! ### Reading it back -/

def csvHeader : List Str :=
  ["frame_id".toList, "image_type".toList, "filename".toList, "path".toList]

def csvRecord (f : FrameRef) : List Str := [natText f.frameId, f.imageType, f.filename, f.absPath]

/-- The values of the column `image_type`. -/
def imageTypes : List Str :=
  ["light".toList, "dark".toList, "flat".toList, "bias".toList, "darkflat".toList, "master".toList,
    "unknown".toList]

/-- The comma-separated values are the header and one record for each frame, and the lines of the list of
paths are the paths, if no path has a line feed. -/
def ReadsBack (dump : Json → Except Thrown Str) (frames : List FrameRef) : Prop :=
  (∃ text, exportFrames dump frames "csv".toList = .ok text ∧
    Csv.read text = some (csvHeader :: frames.map csvRecord)) ∧
  ((∀ f ∈ frames, '\n' ∉ f.absPath) → ∃ text, exportFrames dump frames "paths".toList = .ok text ∧
    Util.getLines text = frames.map FrameRef.absPath)

/-- The value has no line break, or it is quoted. -/
def Kept (s : Str) : Prop := (',' ∈ s ∨ '"' ∈ s) ∨ ('\n' ∉ s ∧ '\r' ∉ s)

instance (s : Str) : Decidable (Kept s) := inferInstanceAs (Decidable (_ ∨ _))

/-! ### One value -/

theorem contains_iff (s : Str) : (s.contains ',' || s.contains '"') = true ↔ ',' ∈ s ∨ '"' ∈ s := by
  rw [Bool.or_eq_true, List.contains_iff_mem, List.contains_iff_mem]

theorem quoteIfNeeded_quote {s : Str} (h : ',' ∈ s ∨ '"' ∈ s) : quoteIfNeeded s = quote s := by
  unfold quoteIfNeeded quote
  rw [if_pos ((contains_iff s).mpr h)]
  congr 2
  refine congrArg (List.flatMap · s) (funext fun c => ?_)
  split
  · next hc => rw [hc]
  · rfl

theorem quoteIfNeeded_self {s : Str} (h : ¬(',' ∈ s ∨ '"' ∈ s)) : quoteIfNeeded s = s := by
  unfold quoteIfNeeded
  rw [if_neg fun hc => h ((contains_iff s).mp hc)]

theorem denotes_of_kept {s : Str} (h : Kept s) : Denotes (quoteIfNeeded s) s := by
  by_cases hquoted : ',' ∈ s ∨ '"' ∈ s
  · rw [quoteIfNeeded_quote hquoted]
    exact denotes_quoted s
  · obtain ⟨hfeed, hreturn⟩ := h.resolve_left hquoted
    obtain ⟨hcomma, hmark⟩ := not_or.mp hquoted
    rw [quoteIfNeeded_self hquoted]
    refine denotes_plain fun c hc => isText_iff.mpr ⟨?_, ?_, ?_, ?_⟩
    · exact ne_of_mem_of_not_mem hc hcomma
    · exact ne_of_mem_of_not_mem hc hmark
    · exact ne_of_mem_of_not_mem hc hfeed
    · exact ne_of_mem_of_not_mem hc hreturn

/-- A value that is not kept is written as it is, and it is text up to a line break. -/
theorem exists_break {s : Str} (h : ¬Kept s) : quoteIfNeeded s = s ∧
    ∃ a c b, s = a ++ c :: b ∧ (∀ d ∈ a, isText d = true) ∧ (c = '\n' ∨ c = '\r') := by
  obtain ⟨hquoted, hbreak⟩ := not_or.mp h
  refine ⟨quoteIfNeeded_self hquoted, ?_⟩
  obtain ⟨a, r, rfl, ha, hr⟩ := exists_run isText s
  obtain ⟨hcomma, hmark⟩ := not_or.mp hquoted
  cases r with
  | nil =>
    rw [List.append_nil] at hbreak
    refine absurd ⟨fun hm => ?_, fun hm => ?_⟩ hbreak
    · exact (isText_iff.mp (ha _ hm)).2.2.1 rfl
    · exact (isText_iff.mp (ha _ hm)).2.2.2 rfl
  | cons c b =>
    refine ⟨a, c, b, rfl, ha, ?_⟩
    have hc : c ∈ a ++ c :: b := List.mem_append_right a List.mem_cons_self
    have hne : c ≠ ',' ∧ c ≠ '"' := ⟨ne_of_mem_of_not_mem hc hcomma, ne_of_mem_of_not_mem hc hmark⟩
    by_contra hother
    obtain ⟨hfeed, hreturn⟩ := not_or.mp hother
    exact absurd (isText_iff.mpr ⟨hne.1, hne.2, hfeed, hreturn⟩) (Bool.eq_false_iff.mp (hr c rfl))

theorem denotes_natText (n : ℕ) : Denotes (natText n) (natText n) := by
  refine denotes_plain fun c hc => isText_iff.mpr ?_
  have hdigit := isDigit_natText hc
  refine ⟨?_, ?_, ?_, ?_⟩ <;> rintro rfl <;> exact absurd hdigit (by decide)

theorem denotes_imageType {s : Str} (h : s ∈ imageTypes) : Denotes s s := by
  have hall : (imageTypes.all fun s => s.all isText) = true := by decide
  exact denotes_plain (List.all_eq_true.mp (List.all_eq_true.mp hall s h))

/-! ### One line -/

theorem csvLine_eq (f : FrameRef) : csvLine f =
    row [natText f.frameId, f.imageType, quoteIfNeeded f.filename, quoteIfNeeded f.absPath] := by
  unfold csvLine row
  rw [List.intercalate_cons_cons, List.intercalate_cons_cons, List.intercalate_cons_cons,
    List.intercalate_singleton]
  simp only [List.append_assoc]

/-- A line of kept values is the record of its frame. -/
theorem readFrom_csvLine {f : FrameRef} (htype : f.imageType ∈ imageTypes) (hname : Kept f.filename)
    (hpath : Kept f.absPath) (records : List (List Str)) (t : Str) :
    readFrom (.begin [] records) (csvLine f ++ t) = readFrom (.begin [] (records ++ [csvRecord f])) t := by
  rw [csvLine_eq]
  exact readFrom_row (.cons (denotes_natText f.frameId) (.cons (denotes_imageType htype)
    (.cons (denotes_of_kept hname) (.cons (denotes_of_kept hpath) .nil)))) (List.cons_ne_nil _ _) [] records t

/-- A line with a value that is not kept is read, if at all, as another record. -/
theorem readFrom_csvLine_break {f : FrameRef} (htype : f.imageType ∈ imageTypes)
    (hbreak : ¬(Kept f.filename ∧ Kept f.absPath)) {records rs : List (List Str)} {t : Str}
    (h : readFrom (.begin [] records) (csvLine f ++ t) = some rs) :
    ∃ r, r ≠ csvRecord f ∧ records ++ [r] <+: rs := by
  have hline : csvLine f ++ t = natText f.frameId ++ ',' :: (f.imageType ++ ',' ::
      (quoteIfNeeded f.filename ++ ',' :: (quoteIfNeeded f.absPath ++ '\n' :: t))) := by
    unfold csvLine
    simp only [List.append_assoc, List.cons_append, List.nil_append]
  rw [hline, (denotes_natText f.frameId _ _ _).1, (denotes_imageType htype _ _ _).1] at h
  by_cases hname : Kept f.filename
  · obtain ⟨hself, a, c, b, hpath, ha, hc⟩ := exists_break fun hpath => hbreak ⟨hname, hpath⟩
    rw [(denotes_of_kept hname _ _ _).1, hself, hpath, List.append_assoc a, List.cons_append] at h
    refine ⟨_, fun heq => ?_, readFrom_break ha hc h⟩
    have hlast : a = f.absPath := by
      unfold csvRecord at heq
      simpa using heq
    have hlength := congrArg List.length (hlast.trans hpath)
    rw [List.length_append, List.length_cons] at hlength
    omega
  · obtain ⟨hself, a, c, b, hfile, ha, hc⟩ := exists_break hname
    rw [hself, hfile, List.append_assoc a, List.cons_append] at h
    refine ⟨_, fun heq => ?_, readFrom_break ha hc h⟩
    exact absurd (congrArg List.length heq) (by simp [csvRecord])

/-! ### All lines -/

theorem readFrom_csvLines {frames : List FrameRef} (htype : ∀ f ∈ frames, f.imageType ∈ imageTypes)
    (records : List (List Str)) :
    readFrom (.begin [] records) (frames.flatMap csvLine) = some (records ++ frames.map csvRecord) ↔
      ∀ f ∈ frames, Kept f.filename ∧ Kept f.absPath := by
  induction frames generalizing records with
  | nil =>
    refine iff_of_true ?_ nofun
    rw [List.map_nil, List.append_nil]
    rfl
  | cons f frames ih =>
    obtain ⟨hf, hframes⟩ := List.forall_mem_cons.mp htype
    rw [List.flatMap_cons, List.forall_mem_cons, List.map_cons]
    by_cases hkept : Kept f.filename ∧ Kept f.absPath
    · rw [readFrom_csvLine hf hkept.1 hkept.2, and_iff_right hkept, ← ih hframes (records ++ [csvRecord f]),
        List.append_assoc, List.singleton_append]
    · refine iff_of_false (fun h => ?_) fun h => hkept h.1
      obtain ⟨r, hne, hprefix⟩ := readFrom_csvLine_break hf hkept h
      rw [List.prefix_append_right_inj, List.cons_prefix_cons] at hprefix
      exact hne hprefix.1

theorem readFrom_csvHeader (t : Str) :
    Csv.read ("frame_id,image_type,filename,path\n".toList ++ t) = readFrom (.begin [] [csvHeader]) t := by
  have hrow : "frame_id,image_type,filename,path\n".toList = row csvHeader := by decide
  have htext : (csvHeader.all fun s => s.all isText) = true := by decide
  have hdenotes : List.Forall₂ Denotes csvHeader csvHeader := List.forall₂_same.mpr fun s hs =>
    denotes_plain (List.all_eq_true.mp (List.all_eq_true.mp htext s hs))
  unfold Csv.read
  rw [hrow]
  exact readFrom_row hdenotes (List.cons_ne_nil _ _) [] [] t

/-- **PROVED: the export is read back.** On every list of frames the comma-separated values and the list of
paths are read as what they were written from if and only if every name and every path is kept. -/
theorem exportFrames_readsBack_iff (dump : Json → Except Thrown Str) (frames : List FrameRef)
    (htype : ∀ f ∈ frames, f.imageType ∈ imageTypes) :
    ReadsBack dump frames ↔ ∀ f ∈ frames, Kept f.filename ∧ Kept f.absPath := by
  have hpaths : (∀ f ∈ frames, '\n' ∉ f.absPath) →
      ∃ text, exportFrames dump frames "paths".toList = .ok text ∧
        Util.getLines text = frames.map FrameRef.absPath := by
    intro hfree
    refine ⟨Separated.terminated '\n' (frames.map FrameRef.absPath), ?_, ?_⟩
    · unfold exportFrames Separated.terminated
      rw [if_pos rfl, List.flatMap_map]
    · exact Util.getLines_terminated (List.forall_mem_map.mpr hfree)
  have hcsv : exportFrames dump frames "csv".toList =
      .ok ("frame_id,image_type,filename,path\n".toList ++ frames.flatMap csvLine) := by
    unfold exportFrames
    rw [if_neg (by decide), if_neg (by decide)]
  rw [← readFrom_csvLines htype [csvHeader], ← readFrom_csvHeader]
  unfold ReadsBack
  rw [hcsv, and_iff_left hpaths]
  constructor
  · rintro ⟨text, htext, hread⟩
    rw [Except.ok.inj htext]
    exact hread
  · exact fun h => ⟨_, rfl, h⟩

def frameNamed (name path : Str) : FrameRef := ⟨1, 1, 1, path, name, name, "light".toList⟩

/-- A name with a comma and one with a quotation mark. -/
theorem exportFrames_readsBack_quoted :
    ReadsBack (fun _ => .ok []) [frameNamed "M31, L.fits".toList "/r/M31, L.fits".toList,
      frameNamed "6\".fits".toList "/r/6\".fits".toList] :=
  (exportFrames_readsBack_iff _ _ (by decide)).mpr (by decide)

/-- A name with a line feed is cut in two. -/
theorem exportFrames_broken : ¬ ∀ (dump : Json → Except Thrown Str) (frames : List FrameRef),
    (∀ f ∈ frames, f.imageType ∈ imageTypes) → ReadsBack dump frames := by
  intro h
  obtain ⟨⟨text, htext, hread⟩, -⟩ := h (fun _ => .ok [])
    [frameNamed "a\nb.fits".toList "/r/a\nb.fits".toList] (by decide)
  rw [← Except.ok.inj htext] at hread
  exact absurd hread (by decide)

end StarBase.Action
