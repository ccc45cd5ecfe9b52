import StarBase.Extract.Number
import StarBase.Lib.LastMax
import StarBase.Lib.Separated

/-!
# The mount of a path

`detect_fs_type` reads `/proc/mounts` and keeps the mount that covers the path.

* `unescapeMountField`, `detectFsType` — the decoder and the loop;
* `AbsPath`, `Mount`, `procMounts` — paths by their components, and the table as the kernel writes it;
* `covers_text` — **PROVED**: the comparison of texts is that of components;
* `unescape_escape` — **PROVED**: the decoder undoes the kernel's escaping;
* `detectFsType_iff` — **PROVED**: when the type is that of the covering mount.

The path is given resolved, and the table as one text.
-/

namespace StarBase.Util

open Extract LastMax

/-! ### The source -/

def isOctal (c : Char) : Bool := decide ('0' ≤ c ∧ c ≤ '7')

/-- `std::stoi` in base 8 of at most three characters, the first a digit. -/
def stoiOctal (s : Str) : Except Thrown ℕ :=
  let digits := s.takeWhile isOctal
  if digits = [] then .error (.std "stoi".toList) else .ok (digitsValue 8 digits)

/-- `/proc/mounts` escapes spaces and a few other characters as octal. -/
def unescapeMountField : Str → Except Thrown Str
  | '\\' :: a :: b :: c :: s =>
    if a.isDigit then do
      let n ← stoiOctal [a, b, c]
      let out ← unescapeMountField s
      pure (Char.ofNat (n % 256) :: out)
    else do
      let out ← unescapeMountField (a :: b :: c :: s)
      pure ('\\' :: out)
  | c :: s => do
    let out ← unescapeMountField s
    pure (c :: out)
  | [] => pure []

/-- What `>>` reads, one after the other. -/
def blankWords (line : Str) : List Str := (line.splitOnP isSpaceChar).filter (· ≠ [])

/-- What `getline` reads, one after the other. -/
def getLines (s : Str) : List Str :=
  let pieces := s.splitOn '\n'
  if pieces.getLast? = some [] then pieces.dropLast else pieces

/-- Lines without line feeds, each with one behind it, are read as they are. -/
theorem getLines_terminated {lines : List Str} (h : Separated.Free '\n' lines) :
    getLines (Separated.terminated '\n' lines) = lines := by
  unfold getLines
  rw [Separated.splitOn_terminated h, if_pos List.getLast?_concat, List.dropLast_concat]

/-- The mount point must be a path-component prefix of the target. -/
def covers (target point : Str) : Bool :=
  point.isPrefixOf target &&
    (target.length == point.length || point == ['/'] || target[point.length]? == some '/')

/-- Longest match wins; a later line at equal length wins too. -/
def keepLonger (target : Str) (best : ℕ × Str) (point fsType : Str) : ℕ × Str :=
  if covers target point && decide (best.1 ≤ point.length) then (point.length, fsType) else best

def readLine (target : Str) (best : ℕ × Str) (line : Str) : Except Thrown (ℕ × Str) :=
  match blankWords line with
  | _ :: point :: fsType :: _ => do
    let point ← unescapeMountField point
    pure (keepLonger target best point fsType)
  | _ => pure best

/-- `canonical` is the path resolved, if it could be, and `mounts` what `/proc/mounts` holds. -/
def detectFsType (canonical mounts : Option Str) (path : Str) : Except Thrown Str :=
  match mounts with
  | none => pure []
  | some text => do
    let best ← (getLines text).foldlM (readLine (canonical.getD path)) (0, [])
    pure best.2

/-! ### Paths and mounts -/

/-- An absolute path without empty components. -/
structure AbsPath where
  parts : List Str
  part_ne : ∀ p ∈ parts, p ≠ []
  part_noSlash : ∀ p ∈ parts, '/' ∉ p

def joinParts (parts : List Str) : Str := parts.flatMap fun p => '/' :: p

def AbsPath.text (p : AbsPath) : Str := if p.parts = [] then ['/'] else joinParts p.parts

/-- One line of the table. -/
structure Mount where
  dev : Str
  point : AbsPath
  fsType : Str
  fsType_ne : fsType ≠ []
  more : List Str

/-- The characters the kernel writes in octal. -/
def escapeChar (c : Char) : Str :=
  if c = ' ' then "\\040".toList
  else if c = '\t' then "\\011".toList
  else if c = '\n' then "\\012".toList
  else if c = '\\' then "\\134".toList
  else [c]

def escape (s : Str) : Str := s.flatMap escapeChar

def Mount.fields (m : Mount) : List Str := m.dev :: m.point.text :: m.fsType :: m.more

def Mount.line (m : Mount) : Str := [' '].intercalate (m.fields.map escape)

def procMounts (mounts : List Mount) : Str := Separated.terminated '\n' (mounts.map Mount.line)

/-- The mount whose point is the longest component prefix of the path, the last listed of those. -/
def IsCoveringAt (target : AbsPath) : (pre : List Mount) → (m : Mount) → (post : List Mount) → Prop :=
  LastMaxAt (fun m => m.point.parts <+: target.parts) fun m => m.point.parts.length

def IsCovering (mounts : List Mount) (target : AbsPath) (m : Mount) : Prop :=
  ∃ pre post, mounts = pre ++ m :: post ∧ IsCoveringAt target pre m post

/-! ### Components and texts -/

theorem joinParts_cons (p : Str) (ps : List Str) : joinParts (p :: ps) = '/' :: (p ++ joinParts ps) := rfl

theorem head_joinParts (ps : List Str) : ∀ c ∈ (joinParts ps).head?, c = '/' := by
  cases ps with
  | nil => nofun
  | cons p ps => exact fun c hc => (Option.some.inj hc).symm

/-- A component ends where a slash or nothing follows. -/
theorem component_eq {p q r s : Str} (hp : '/' ∉ p) (hq : '/' ∉ q) (hr : ∀ c ∈ r.head?, c = '/')
    (hs : ∀ c ∈ s.head?, c = '/') (h : p ++ r = q ++ s) : p = q ∧ r = s := by
  have hrun : ∀ {x : Str}, '/' ∉ x → ∀ c ∈ x, (c != '/') = true := fun hx c hc =>
    bne_iff_ne.mpr fun he => hx (he ▸ hc)
  have hstop : ∀ {x : Str}, (∀ c ∈ x.head?, c = '/') → ∀ c ∈ x.head?, (c != '/') = false :=
    fun hx c hc => by rw [hx c hc]; rfl
  have htake := congrArg (List.takeWhile (· != '/')) h
  rw [takeWhile_append_stop (hrun hp) (hstop hr), takeWhile_append_stop (hrun hq) (hstop hs)] at htake
  subst htake
  exact ⟨rfl, List.append_cancel_left h⟩

/-- A text of components that goes on with a slash or ends is a prefix by components. -/
theorem isPrefix_of_joinParts {ps ts : List Str} {r : Str} (hps : ∀ p ∈ ps, '/' ∉ p)
    (hts : ∀ t ∈ ts, '/' ∉ t) (hr : ∀ c ∈ r.head?, c = '/') (h : joinParts ps ++ r = joinParts ts) :
    ps <+: ts := by
  induction ps generalizing ts with
  | nil => exact List.nil_prefix
  | cons p ps ih =>
    cases ts with
    | nil => cases h
    | cons t ts =>
      rw [joinParts_cons, joinParts_cons, List.cons_append, List.append_assoc] at h
      have hrest : ∀ c ∈ (joinParts ps ++ r).head?, c = '/' := by
        cases ps with
        | nil => exact hr
        | cons q qs => exact fun c hc => (Option.some.inj hc).symm
      obtain ⟨rfl, htail⟩ := component_eq (hps p List.mem_cons_self) (hts t List.mem_cons_self) hrest
        (head_joinParts ts) (List.cons.inj h).2
      exact List.prefix_cons_inj p |>.mpr (ih (fun q hq => hps q (List.mem_cons_of_mem p hq))
        (fun q hq => hts q (List.mem_cons_of_mem p hq)) htail)

theorem joinParts_append (ps qs : List Str) : joinParts (ps ++ qs) = joinParts ps ++ joinParts qs :=
  List.flatMap_append

theorem length_joinParts_pos {ps : List Str} (h : ps ≠ []) (hne : ∀ p ∈ ps, p ≠ []) :
    2 ≤ (joinParts ps).length := by
  obtain ⟨p, ps, rfl⟩ := List.exists_cons_of_ne_nil h
  have hp := List.length_pos_iff.mpr (hne p List.mem_cons_self)
  rw [joinParts_cons, List.length_cons, List.length_append]
  omega

/-- **PROVED**: the comparison of the texts is that of the components. -/
theorem covers_text (target point : AbsPath) :
    covers target.text point.text = true ↔ point.parts <+: target.parts := by
  unfold covers AbsPath.text
  by_cases hp : point.parts = []
  · rw [if_pos hp, hp]
    refine iff_of_true ?_ List.nil_prefix
    have hroot : ['/'].isPrefixOf (if target.parts = [] then ['/'] else joinParts target.parts) = true := by
      cases target.parts <;> rfl
    rw [hroot]
    simp
  · rw [if_neg hp]
    have hpoint := length_joinParts_pos hp point.part_ne
    have hneRoot : (joinParts point.parts == ['/']) = false := by
      refine beq_eq_false_iff_ne.mpr fun h => ?_
      rw [h] at hpoint
      exact absurd hpoint (by decide)
    by_cases ht : target.parts = []
    · rw [if_pos ht, ht]
      refine iff_of_false (fun h => ?_) fun h => hp (List.prefix_nil.mp h)
      have hle := (List.isPrefixOf_iff_prefix.mp (Bool.and_eq_true_iff.mp h).1).length_le
      rw [List.length_singleton] at hle
      omega
    · rw [if_neg ht, hneRoot, Bool.or_false, Bool.and_eq_true, Bool.or_eq_true, beq_iff_eq, beq_iff_eq]
      constructor
      · rintro ⟨hpre, hend⟩
        obtain ⟨r, hr⟩ := List.isPrefixOf_iff_prefix.mp hpre
        refine isPrefix_of_joinParts point.part_noSlash target.part_noSlash (r := r) ?_ hr
        rw [← hr] at hend
        rcases hend with hlen | hslash
        · rw [List.length_append] at hlen
          have hnil : r = [] := List.eq_nil_of_length_eq_zero (by omega)
          subst hnil
          nofun
        · rw [List.getElem?_append_right (Nat.le_refl _), Nat.sub_self] at hslash
          intro c hc
          rw [List.head?_eq_getElem?, hslash] at hc
          exact (Option.some.inj hc).symm
      · rintro ⟨qs, hqs⟩
        rw [← hqs, joinParts_append]
        refine ⟨List.isPrefixOf_iff_prefix.mpr (List.prefix_append _ _), ?_⟩
        rw [List.length_append, List.getElem?_append_right (Nat.le_refl _), Nat.sub_self,
          ← List.head?_eq_getElem?]
        cases qs with
        | nil => exact .inl rfl
        | cons q qs => exact .inr rfl

/-- Of two prefixes of one path the one with fewer components has the shorter text. -/
theorem length_text_lt {p q t : AbsPath} (hp : p.parts <+: t.parts) (hq : q.parts <+: t.parts)
    (h : p.parts.length < q.parts.length) : p.text.length < q.text.length := by
  obtain ⟨rest, hrest⟩ := List.prefix_of_prefix_length_le hp hq (Nat.le_of_lt h)
  have hq0 : q.parts ≠ [] := List.ne_nil_of_length_pos (by omega)
  have hne : rest ≠ [] := by
    rintro rfl
    rw [← hrest, List.append_nil] at h
    omega
  have hrest2 : 2 ≤ (joinParts rest).length :=
    length_joinParts_pos hne fun r hr => q.part_ne r (hrest ▸ List.mem_append_right _ hr)
  unfold AbsPath.text
  rw [if_neg hq0, ← hrest, joinParts_append, List.length_append]
  split
  · rw [List.length_singleton]
    omega
  · omega

theorem length_text_le_iff {p q t : AbsPath} (hp : p.parts <+: t.parts) (hq : q.parts <+: t.parts) :
    p.text.length ≤ q.text.length ↔ p.parts.length ≤ q.parts.length := by
  constructor
  · intro h
    by_contra hlt
    exact absurd (length_text_lt hq hp (Nat.lt_of_not_le hlt)) (Nat.not_lt_of_le h)
  · intro h
    rcases Nat.lt_or_ge p.parts.length q.parts.length with hlt | hge
    · exact Nat.le_of_lt (length_text_lt hp hq hlt)
    · have heq : p.parts = q.parts :=
        (List.prefix_of_prefix_length_le hp hq h).eq_of_length (Nat.le_antisymm h hge)
      unfold AbsPath.text
      rw [heq]

/-! ### What the kernel writes -/

theorem unescape_plain {c : Char} (hc : c ≠ '\\') (s : Str) :
    unescapeMountField (c :: s) = (unescapeMountField s).map (c :: ·) := by
  conv_lhs => unfold unescapeMountField
  split
  · next heq => exact absurd (List.cons.inj heq).1 hc
  · next heq =>
    cases heq
    cases unescapeMountField s <;> rfl
  · next heq => cases heq

theorem unescape_octal {a b c d : Char} (ha : a.isDigit = true) {n : ℕ} (hn : stoiOctal [a, b, c] = .ok n)
    (hd : Char.ofNat (n % 256) = d) (s : Str) :
    unescapeMountField ('\\' :: a :: b :: c :: s) = (unescapeMountField s).map (d :: ·) := by
  rw [unescapeMountField, if_pos ha, hn, ← hd]
  cases unescapeMountField s <;> rfl

theorem unescape_escapeChar (c : Char) (s : Str) :
    unescapeMountField (escapeChar c ++ s) = (unescapeMountField s).map (c :: ·) := by
  unfold escapeChar
  by_cases h₁ : c = ' '
  · subst h₁
    exact unescape_octal (a := '0') (b := '4') (c := '0') (n := 32) rfl rfl rfl s
  rw [if_neg h₁]
  by_cases h₂ : c = '\t'
  · subst h₂
    exact unescape_octal (a := '0') (b := '1') (c := '1') (n := 9) rfl rfl rfl s
  rw [if_neg h₂]
  by_cases h₃ : c = '\n'
  · subst h₃
    exact unescape_octal (a := '0') (b := '1') (c := '2') (n := 10) rfl rfl rfl s
  rw [if_neg h₃]
  by_cases h₄ : c = '\\'
  · subst h₄
    exact unescape_octal (a := '1') (b := '3') (c := '4') (n := 92) rfl rfl rfl s
  rw [if_neg h₄]
  exact unescape_plain h₄ s

/-- **PROVED**: the decoder undoes the kernel's escaping. -/
theorem unescape_escape (s : Str) : unescapeMountField (escape s) = .ok s := by
  induction s with
  | nil => rfl
  | cons c s ih =>
    show unescapeMountField (escapeChar c ++ escape s) = _
    rw [unescape_escapeChar, ih]
    rfl

/-- The blanks the kernel does not escape. -/
def isRawBlank (c : Char) : Bool := c == '\x0b' || c == '\x0c' || c == '\r'

theorem escapeChar_blank {c : Char} (h : isRawBlank c = true) :
    escapeChar c = [c] ∧ isSpaceChar c = true := by
  unfold isRawBlank at h
  simp only [Bool.or_eq_true, beq_iff_eq] at h
  rcases h with (rfl | rfl) | rfl <;> decide

theorem escapeChar_no_blank {c : Char} (h : isRawBlank c = false) :
    ∀ d ∈ escapeChar c, isSpaceChar d = false := by
  have hfree : ∀ s : Str, s.all (fun d => !isSpaceChar d) = true → ∀ d ∈ s, isSpaceChar d = false :=
    fun s hs d hd => Bool.not_eq_true' _ ▸ List.all_eq_true.mp hs d hd
  unfold escapeChar
  split
  · exact hfree _ rfl
  split
  · exact hfree _ rfl
  split
  · exact hfree _ rfl
  split
  · exact hfree _ rfl
  · next h₁ h₂ h₃ h₄ =>
    intro d hd
    rw [List.mem_singleton.mp hd]
    unfold isRawBlank at h
    unfold isSpaceChar
    simp only [Bool.or_eq_false_iff, beq_eq_false_iff_ne] at h
    simp [h₁, h₂, h₃, h.1.1, h.1.2, h.2]

theorem splitOnP_append_free {α : Type} {p : α → Bool} {w s : List α} (hw : ∀ a ∈ w, p a = false) :
    (w ++ s).splitOnP p = (s.splitOnP p).modifyHead (w ++ ·) := by
  induction w with
  | nil =>
    obtain ⟨t, ts, ht⟩ := List.exists_cons_of_ne_nil (List.splitOnP_ne_nil p s)
    rw [List.nil_append, ht]
    rfl
  | cons a w ih =>
    obtain ⟨t, ts, ht⟩ := List.exists_cons_of_ne_nil (List.splitOnP_ne_nil p s)
    rw [List.cons_append, List.splitOnP_cons_eq_if_modifyHead, hw a List.mem_cons_self,
      ih fun b hb => hw b (List.mem_cons_of_mem a hb), ht]
    rfl

/-- An escaped field is cut where it has a blank that is not escaped. -/
theorem splitOnP_escape (s : Str) :
    (escape s).splitOnP isSpaceChar = (s.splitOnP isRawBlank).map escape := by
  induction s with
  | nil => rfl
  | cons c s ih =>
    obtain ⟨t, ts, ht⟩ := List.exists_cons_of_ne_nil (List.splitOnP_ne_nil isRawBlank s)
    rw [ht] at ih
    show (escapeChar c ++ escape s).splitOnP isSpaceChar = _
    rw [List.splitOnP_cons_eq_if_modifyHead, ht]
    cases hc : isRawBlank c with
    | true =>
      obtain ⟨hself, hspace⟩ := escapeChar_blank hc
      rw [hself, List.singleton_append, List.splitOnP_cons_eq_if_modifyHead, hspace, ih]
      rfl
    | false =>
      rw [splitOnP_append_free (escapeChar_no_blank hc), ih]
      rfl

/-- The pieces of a field between blanks that are not escaped. -/
def rawWords (s : Str) : List Str := (s.splitOnP isRawBlank).filter (· ≠ [])

theorem escape_eq_nil_iff {s : Str} : escape s = [] ↔ s = [] := by
  cases s with
  | nil => exact iff_of_true rfl rfl
  | cons c s =>
    refine iff_of_false (fun h => ?_) (List.cons_ne_nil c s)
    have hnil : escapeChar c = [] := (List.append_eq_nil_iff.mp h).1
    unfold escapeChar at hnil
    repeat' split at hnil
    all_goals cases hnil

theorem blankWords_escape (s : Str) : blankWords (escape s) = (rawWords s).map escape := by
  unfold blankWords rawWords
  rw [splitOnP_escape, List.filter_map]
  congr 1
  refine List.filter_congr fun t _ => ?_
  exact decide_eq_decide.mpr (not_congr escape_eq_nil_iff)

theorem blankWords_append (a b : Str) : blankWords (a ++ ' ' :: b) = blankWords a ++ blankWords b := by
  unfold blankWords
  rw [List.splitOnP_append_cons a b (by rfl), List.filter_append]

theorem blankWords_line (fields : List Str) :
    blankWords ([' '].intercalate (fields.map escape)) = (fields.flatMap rawWords).map escape := by
  induction fields with
  | nil => rfl
  | cons s fields ih =>
    cases fields with
    | nil =>
      rw [List.map_singleton, List.intercalate_singleton, blankWords_escape, List.flatMap_singleton]
    | cons t fields =>
      rw [List.map_cons, List.map_cons, List.intercalate_cons_cons, ← List.map_cons, List.append_assoc,
        List.singleton_append, blankWords_append, ih, blankWords_escape, ← List.map_append,
        List.flatMap_cons]
      rfl

/-! ### The table as it is read -/

/-- The point and the type of a line as the loop has them: the second and the third of its pieces. -/
def Mount.reading (m : Mount) : Option (Str × Str) :=
  match m.fields.flatMap rawWords with
  | _ :: point :: fsType :: _ => some (point, escape fsType)
  | _ => none

/-- The loop keeps the last of the longest readings that cover the target. -/
def IsReadAsCovering (mounts : List Mount) (target : Str) (r : Str × Str) : Prop :=
  IsLastMax (fun r => covers target r.1 = true) (fun r => r.1.length) (mounts.filterMap Mount.reading) r

theorem readLine_line (target : Str) (best : ℕ × Str) (m : Mount) :
    readLine target best m.line =
      .ok (m.reading.elim best fun r => keepLonger target best r.1 r.2) := by
  unfold readLine Mount.line Mount.reading
  rw [blankWords_line]
  rcases m.fields.flatMap rawWords with - | ⟨a, - | ⟨b, - | ⟨c, rest⟩⟩⟩
  · rfl
  · rfl
  · rfl
  · show (unescapeMountField (escape b) >>= fun point => _) = _
    rw [unescape_escape]
    rfl

theorem foldlM_readLine (target : Str) (mounts : List Mount) (best : ℕ × Str) :
    (mounts.map Mount.line).foldlM (readLine target) best =
      .ok ((mounts.filterMap Mount.reading).foldl (fun best r => keepLonger target best r.1 r.2) best) := by
  induction mounts generalizing best with
  | nil => rfl
  | cons m mounts ih =>
    rw [List.map_cons, List.foldlM_cons, readLine_line]
    show (mounts.map Mount.line).foldlM (readLine target) _ = _
    rw [ih, List.filterMap_cons]
    cases m.reading <;> rfl

/-- What the loop carries for the mount kept so far. -/
def kept (best : Option (Str × Str)) : ℕ × Str := best.elim (0, []) fun r => (r.1.length, r.2)

theorem foldl_keepLonger (target : Str) (rs : List (Str × Str)) (best : Option (Str × Str)) :
    rs.foldl (fun best r => keepLonger target best r.1 r.2) (kept best) =
      kept (rs.foldl (keepLast (fun r => covers target r.1 = true) fun r => r.1.length) best) := by
  induction rs generalizing best with
  | nil => rfl
  | cons r rs ih =>
    rw [List.foldl_cons, List.foldl_cons, ← ih]
    congr 1
    unfold keepLonger keepLast
    have hle : (kept best).1 ≤ r.1.length ↔ ∀ b ∈ best, b.1.length ≤ r.1.length := by
      cases best with
      | none => exact iff_of_true (Nat.zero_le _) nofun
      | some b =>
        refine ⟨fun h c hc => Option.some.inj hc ▸ h, fun h => h b rfl⟩
    by_cases h : covers target r.1 = true ∧ (kept best).1 ≤ r.1.length
    · rw [if_pos (Bool.and_eq_true_iff.mpr ⟨h.1, decide_eq_true h.2⟩), if_pos ⟨h.1, hle.mp h.2⟩]
      rfl
    · rw [if_neg fun hc => h ((Bool.and_eq_true_iff.mp hc).imp_right of_decide_eq_true),
        if_neg fun hc => h ⟨hc.1, hle.mpr hc.2⟩]

theorem newline_not_mem_escape (s : Str) : '\n' ∉ escape s := by
  intro h
  obtain ⟨c, -, hc⟩ := List.mem_flatMap.mp h
  unfold escapeChar at hc
  split at hc
  · exact absurd hc (by decide)
  split at hc
  · exact absurd hc (by decide)
  split at hc
  · exact absurd hc (by decide)
  split at hc
  · exact absurd hc (by decide)
  · next hne _ => exact hne (List.mem_singleton.mp hc).symm

theorem free_lines (mounts : List Mount) : Separated.Free '\n' (mounts.map Mount.line) := by
  intro line hline
  obtain ⟨m, -, rfl⟩ := List.mem_map.mp hline
  refine (Separated.not_mem_intercalate_iff (by decide)).mpr fun field hfield => ?_
  obtain ⟨s, -, rfl⟩ := List.mem_map.mp hfield
  exact newline_not_mem_escape s

theorem getLines_procMounts (mounts : List Mount) :
    getLines (procMounts mounts) = mounts.map Mount.line :=
  getLines_terminated (free_lines mounts)

/-- The result is the type of the last of the longest readings that cover the target. -/
theorem detectFsType_procMounts (target : Str) (mounts : List Mount) (path : Str) :
    detectFsType (some target) (some (procMounts mounts)) path =
      .ok (((mounts.filterMap Mount.reading).foldl
        (keepLast (fun r => covers target r.1 = true) fun r => r.1.length) none).elim [] Prod.snd) := by
  show ((getLines (procMounts mounts)).foldlM (readLine target) (0, []) >>= fun best => pure best.2) = _
  rw [getLines_procMounts, foldlM_readLine]
  have hfold := foldl_keepLonger target (mounts.filterMap Mount.reading) none
  rw [show kept none = (0, []) from rfl] at hfold
  rw [hfold]
  generalize (mounts.filterMap Mount.reading).foldl _ none = best
  cases best <;> rfl

/-! ### When the lines are read right -/

/-- The line gives its mount point and its type. -/
def Mount.Legible (m : Mount) : Prop := m.reading = some (m.point.text, m.fsType)

/-- A line that is read as one of another mount point: where that covers the target, it is shorter
than the mount point of the mount `w`, or as long and listed before it. -/
def NotBeaten (pre post : List Mount) (target : Str) (w : Mount) : Prop :=
  (∀ m ∈ pre, ∀ r ∈ m.reading, r.1 ≠ m.point.text → covers target r.1 = true →
    r.1.length ≤ w.point.text.length) ∧
  ∀ m ∈ post, ∀ r ∈ m.reading, r.1 ≠ m.point.text → covers target r.1 = true →
    r.1.length < w.point.text.length

/-- The line of the covering mount is read right, and no line that is read wrong beats it; or the
mount read as covering has, by coincidence, the same type.  The first is the condition on the lines,
and implies the second (`isReadAsCovering_of_legible`); the coincidence is there for the converse. -/
def ReadRight (mounts : List Mount) (target : AbsPath) : Prop :=
  ∀ pre w post, mounts = pre ++ w :: post → IsCoveringAt target pre w post →
    (w.Legible ∧ NotBeaten pre post target.text w) ∨
      ∃ r, IsReadAsCovering mounts target.text r ∧ r.2 = w.fsType

/-- A covering mount that is read right and not beaten is the one read as covering. -/
theorem isReadAsCovering_of_legible {pre post : List Mount} {w : Mount} {target : AbsPath}
    (hat : IsCoveringAt target pre w post) (hw : w.Legible)
    (hbeat : NotBeaten pre post target.text w) :
    IsReadAsCovering (pre ++ w :: post) target.text (w.point.text, w.fsType) := by
  obtain ⟨hcovers, hpre, hpost⟩ := hat
  refine ⟨pre.filterMap Mount.reading, post.filterMap Mount.reading, ?_,
    (covers_text target w.point).mpr hcovers, fun r hr hc => ?_, fun r hr hc => ?_⟩
  · rw [List.filterMap_append, List.filterMap_cons_some hw]
  · obtain ⟨m, hm, hread⟩ := List.mem_filterMap.mp hr
    by_cases hpoint : r.1 = m.point.text
    · change covers target.text r.1 = true at hc
      show r.1.length ≤ w.point.text.length
      rw [hpoint] at hc ⊢
      have hmc := (covers_text target m.point).mp hc
      exact (length_text_le_iff hmc hcovers).mpr (hpre m hm hmc)
    · exact hbeat.1 m hm r hread hpoint hc
  · obtain ⟨m, hm, hread⟩ := List.mem_filterMap.mp hr
    by_cases hpoint : r.1 = m.point.text
    · change covers target.text r.1 = true at hc
      show r.1.length < w.point.text.length
      rw [hpoint] at hc ⊢
      have hmc := (covers_text target m.point).mp hc
      exact length_text_lt hmc hcovers (hpost m hm hmc)
    · exact hbeat.2 m hm r hread hpoint hc

/-- **PROVED: the mount of a path.** On every table the type of the covering mount is returned if and
only if the lines are read right; the decoder undoes the kernel's escaping on every text. -/
theorem detectFsType_iff (mounts : List Mount) (target : AbsPath) (path : Str) :
    ((∀ w, IsCovering mounts target w →
        detectFsType (some target.text) (some (procMounts mounts)) path = .ok w.fsType) ↔
      ReadRight mounts target) ∧
    ∀ s, unescapeMountField (escape s) = .ok s := by
  refine ⟨?_, unescape_escape⟩
  rw [detectFsType_procMounts]
  constructor
  · rintro h pre w post rfl hat
    have hresult := Except.ok.inj (h w ⟨pre, post, rfl, hat⟩)
    cases hfold : ((pre ++ w :: post).filterMap Mount.reading).foldl
        (keepLast (fun r => covers target.text r.1 = true) fun r => r.1.length) none with
    | none =>
      rw [hfold] at hresult
      exact absurd hresult.symm w.fsType_ne
    | some r =>
      rw [hfold] at hresult
      exact .inr ⟨r, foldl_keepLast_iff.mp hfold, hresult⟩
  · rintro h w ⟨pre, post, rfl, hat⟩
    have hread : ∃ r, IsReadAsCovering (pre ++ w :: post) target.text r ∧ r.2 = w.fsType := by
      rcases h pre w post rfl hat with ⟨hw, hbeat⟩ | hread
      · exact ⟨_, isReadAsCovering_of_legible hat hw hbeat, rfl⟩
      · exact hread
    obtain ⟨r, hr, htype⟩ := hread
    rw [foldl_keepLast_iff.mpr hr, ← htype]
    rfl

/-- A mount point with a carriage return, on a network file system. -/
def nasMount : Mount where
  dev := "nas:/astro".toList
  point := ⟨["a\rb".toList], by decide, by decide⟩
  fsType := "nfs4".toList
  fsType_ne := by decide
  more := ["rw".toList]

def rootMount : Mount where
  dev := "/dev/sda1".toList
  point := ⟨[], nofun, nofun⟩
  fsType := "ext4".toList
  fsType_ne := by decide
  more := ["rw".toList]

/-- Its line has one piece more, so the mount is not seen. -/
theorem detectFsType_return :
    ¬ ∀ (mounts : List Mount) (target : AbsPath) (path : Str) (w : Mount), IsCovering mounts target w →
      detectFsType (some target.text) (some (procMounts mounts)) path = .ok w.fsType := by
  intro h
  have hnas := h [rootMount, nasMount] nasMount.point [] nasMount
    ⟨[rootMount], [], rfl, List.prefix_rfl, by decide, nofun⟩
  rw [detectFsType_procMounts] at hnas
  exact absurd hnas (by decide)

end StarBase.Util
