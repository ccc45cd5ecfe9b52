import StarBase.Extract.Resolver
import StarBase.Fits.StringValue
import StarBase.Lib.TextSearch

/-!
# Scanning the header of an XISF file

`read_xisf` finds the `<Image` tags in the header's text, and for each the `<FITSKeyword` elements
before the next `</Image>` or `<Image`.  It searches the text; it does not parse it.  The loops are
given a number of turns, and `none` means that these were not enough.

* `attr`, `stripComments`, `keywordLoop`, `imageLoop`, `readXisf` — the reader;
* `Traced` — images and cards come from their occurrences in the text, in its order;
* `readXisf_safe` — **PROVED**: on every file, as many turns as its length are enough, and the result is
  an error or a nonempty list of images that is traced;
* `brokenTag_card` — the text that is scanned is the one without comments.

The bytes of a file are characters here; pixels and the elements that are not keywords are left out.
-/

namespace StarBase.Fits

open TextSearch

/-! ### Attributes -/

/-- Decode the five predefined entities. -/
def xmlUnescape : Str → Str
  | [] => []
  | '&' :: 'a' :: 'm' :: 'p' :: ';' :: cs => '&' :: xmlUnescape cs
  | '&' :: 'l' :: 't' :: ';' :: cs => '<' :: xmlUnescape cs
  | '&' :: 'g' :: 't' :: ';' :: cs => '>' :: xmlUnescape cs
  | '&' :: 'q' :: 'u' :: 'o' :: 't' :: ';' :: cs => '"' :: xmlUnescape cs
  | '&' :: 'a' :: 'p' :: 'o' :: 's' :: ';' :: cs => '\'' :: xmlUnescape cs
  | c :: cs => c :: xmlUnescape cs

/-- A character that may stand inside an attribute's name. -/
def isNameChar (c : Char) : Bool := c.isAlphanum || c = '_' || c = '-' || c = ':'

/-- The value, if what stands at `pos` is the attribute: no name character before it, and behind it
an equals sign and a quoted text. -/
def attrAt (elem name : Str) (pos : ℕ) : Option Str :=
  let leftOk := pos = 0 || (elem[pos - 1]?).all fun c => !isNameChar c
  match (elem.drop (pos + name.length)).dropWhile isSpaceChar with
  | '=' :: rest =>
    match rest.dropWhile isSpaceChar with
    | q :: text =>
      if leftOk && (q = '"' || q = '\'') && text.contains q then
        some (xmlUnescape (text.takeWhile fun c => c ≠ q))
      else none
    | [] => none
  | _ => none

/-- The loop of `attr`. -/
def attrLoop (elem name : Str) : ℕ → ℕ → Option (Option Str)
  | 0, _ => none
  | turns + 1, pos =>
    match find name elem pos with
    | none => some none
    | some p =>
      match attrAt elem name p with
      | some value => some (some value)
      | none => attrLoop elem name turns (p + name.length)

/-- The value of an attribute of an element. -/
def attr (turns : ℕ) (elem name : Str) : Option (Option Str) := attrLoop elem name turns 0

/-! ### Comments -/

/-- Remove the comments; one that does not end takes the rest with it. -/
def stripComments : ℕ → Str → Option Str
  | 0, _ => none
  | _ + 1, [] => some []
  | turns + 1, c :: cs =>
    if StandsAt "<!--".toList (c :: cs) 0 then
      match find "-->".toList (c :: cs) 4 with
      | none => some []
      | some e => stripComments turns ((c :: cs).drop (e + 3))
    else (stripComments turns cs).map (c :: ·)

/-! ### Images -/

/-- `std::stol`, and zero where it throws. -/
def toLong (s : Str) : Int :=
  match Extract.scanInteger s with
  | none => 0
  | some (n, _) => if -(2 ^ 63) ≤ n ∧ n < 2 ^ 63 then n else 0

/-- The dimensions of a geometry; nothing follows a colon at the end. -/
def dimensions (geom : Str) : List Int :=
  let fields := geom.splitOn ':'
  (if fields.getLast? = some [] then fields.dropLast else fields).map toLong

/-- sampleFormat → BITPIX. -/
def bitpixFor (fmt : Str) : Int :=
  if fmt = "UInt8".toList then 8
  else if fmt = "UInt16".toList then 16
  else if fmt = "UInt32".toList then 32
  else if fmt = "UInt64".toList then 64
  else if fmt = "Float32".toList ∨ fmt = "Complex32".toList then -32
  else if fmt = "Float64".toList ∨ fmt = "Complex64".toList then -64
  else 0

def intText (n : Int) : Str := (toString n).toList

/-- The geometry cards a FITS file would carry. -/
def geometryCards (naxis naxis1 naxis2 : Int) : List Card :=
  [⟨"NAXIS".toList, intText naxis, "number of axes (XISF)".toList⟩,
    ⟨"NAXIS1".toList, intText naxis1, "axis length (XISF geometry)".toList⟩,
    ⟨"NAXIS2".toList, intText naxis2, "axis length (XISF geometry)".toList⟩]

/-- An image with what its tag says and the cards of its keywords.  More than one channel reads as a
third axis. -/
def imageHdu (index : ℕ) (geom fmt : Option Str) (keywords : List Card) : Hdu :=
  let dims := (geom.map dimensions).getD []
  let naxis := match geom with
    | none => 0
    | some _ => if 3 ≤ dims.length ∧ 1 < dims.getLast?.getD 0 then 3 else 2
  let naxis1 := dims[0]?.getD 0
  let naxis2 := dims[1]?.getD 0
  { index := index
    isImage := true
    bitpix := (fmt.map bitpixFor).getD 0
    naxis := naxis
    naxis1 := naxis1
    naxis2 := naxis2
    cards := geometryCards naxis naxis1 naxis2 ++ keywords }

/-- The images read so far, numbered in order. -/
structure Images where
  hdus : List Hdu
  numbered : hdus.map Hdu.index = List.range hdus.length

def Images.none : Images := ⟨[], rfl⟩

theorem Images.numbered_push (r : Images) (geom fmt : Option Str) (keywords : List Card) :
    (r.hdus ++ [imageHdu r.hdus.length geom fmt keywords]).map Hdu.index =
      List.range (r.hdus ++ [imageHdu r.hdus.length geom fmt keywords]).length := by
  rw [List.map_append, r.numbered, List.length_append, List.length_singleton, List.range_succ]
  rfl

def Images.push (r : Images) (geom fmt : Option Str) (keywords : List Card) : Images :=
  ⟨r.hdus ++ [imageHdu r.hdus.length geom fmt keywords], r.numbered_push geom fmt keywords⟩

def Images.header (r : Images) : RawHeader where
  hdus := r.hdus
  index_nodup := r.numbered ▸ List.nodup_range

/-! ### The loops -/

/-- The text from a tag up to its `>`. -/
def tagText (xml : Str) (pos tagEnd : ℕ) : Str := (xml.drop pos).take (tagEnd - pos)

/-- The card of a keyword element, if it has a name. -/
def keywordCard (turns : ℕ) (elem : Str) : Option (Option Card) := do
  let name ← attr turns elem "name".toList
  let value ← attr turns elem "value".toList
  let comment ← attr turns elem "comment".toList
  if name.getD [] = [] then some none
  else some (some ⟨name.getD [], stripFitsValue (value.getD []), comment.getD []⟩)

/-- The keywords from `k` on, before the end of the image. -/
def keywordLoop (turns : ℕ) (xml : Str) (scopeEnd : ℕ) : ℕ → ℕ → List Card → Option (List Card)
  | 0, _, _ => none
  | left + 1, k, cards =>
    match find "<FITSKeyword".toList xml k with
    | none => some cards
    | some k =>
      if k < scopeEnd then
        match find ">".toList xml k with
        | none => some cards
        | some ke => do
          let card ← keywordCard turns (tagText xml k ke)
          keywordLoop turns xml scopeEnd left ke (cards ++ card.toList)
      else some cards

/-- An image ends at `</Image>` or at the next `<Image`, whichever comes first. -/
def scopeEnd (xml : Str) (tagEnd : ℕ) : ℕ :=
  let close := (find "</Image>".toList xml tagEnd).getD xml.length
  match find "<Image".toList xml tagEnd with
  | some next => if next < close then next else close
  | none => close

/-- Whether the tag's name ends where `<Image` does. -/
def endsTagName (xml : Str) (pos : ℕ) : Bool :=
  let after := xml[pos + 6]?.getD '>'
  isSpaceChar after || after = '>' || after = '/'

/-- The image whose tag stands at `pos` and ends at `tagEnd`. -/
def readImage (turns : ℕ) (xml : Str) (pos tagEnd : ℕ) (r : Images) : Option Images := do
  let geom ← attr turns (tagText xml pos tagEnd) "geometry".toList
  let fmt ← attr turns (tagText xml pos tagEnd) "sampleFormat".toList
  let keywords ← keywordLoop turns xml (scopeEnd xml tagEnd) turns tagEnd []
  some (r.push geom fmt keywords)

/-- The images from `pos` on. -/
def imageLoop (turns : ℕ) (xml : Str) : ℕ → ℕ → Images → Option Images
  | 0, _, _ => none
  | left + 1, pos, r =>
    match find "<Image".toList xml pos with
    | none => some r
    | some pos =>
      if endsTagName xml pos then
        match find ">".toList xml pos with
        | none => some r
        | some tagEnd => do
          let r ← readImage turns xml pos tagEnd r
          imageLoop turns xml left tagEnd r
      else imageLoop turns xml left (pos + 6) r

/-! ### The file -/

/-- The length of the header, little-endian. -/
def headerLength (file : Str) : ℕ :=
  let byte (i : ℕ) : ℕ := (file[i]?.getD '\x00').toNat
  byte 8 + byte 9 * 2 ^ 8 + byte 10 * 2 ^ 16 + byte 11 * 2 ^ 24

def maxHeaderBytes : ℕ := 64 * 1024 * 1024

def headerText (file : Str) : Str := (file.drop 16).take (headerLength file)

/-- `read_xisf` on the file's bytes, `none` for a file that cannot be opened.  An error is the text of
the `FitsError`. -/
def readXisf (turns : ℕ) (path : Str) (file : Option Str) : Option (Except Str RawHeader) :=
  match file with
  | none => some (.error ("cannot open XISF file: ".toList ++ path))
  | some file =>
    if file.length < 16 then
      some (.error ("XISF file too short for a header: ".toList ++ path))
    else if file.take 8 ≠ "XISF0100".toList then
      some (.error ("not an XISF file (bad signature): ".toList ++ path))
    else if headerLength file = 0 ∨ maxHeaderBytes < headerLength file then
      some (.error ("XISF header length out of range: ".toList ++ path))
    else if file.length < 16 + headerLength file then
      some (.error ("XISF header truncated: ".toList ++ path))
    else do
      let xml ← stripComments turns (headerText file)
      let r ← imageLoop turns xml turns 0 .none
      if r.hdus = [] then
        some (.error ("XISF header contains no <Image> element: ".toList ++ path))
      else some (.ok r.header)

/-! ### Occurrences -/

/-- A keyword element at `pos`, with the card that is read from it. -/
structure KeywordAt (xml : Str) (pos : ℕ) (card : Card) : Prop where
  stands : StandsAt "<FITSKeyword".toList xml pos
  read : ∃ tagEnd, find ">".toList xml pos = some tagEnd ∧
    ∀ turns, xml.length < turns → keywordCard turns (tagText xml pos tagEnd) = some (some card)

/-- Where an image's tag stands, and its keywords with their cards. -/
structure ImageTrace where
  tag : ℕ
  keywords : List (ℕ × Card)

def ImageTrace.positions (t : ImageTrace) : List ℕ := t.tag :: t.keywords.map Prod.fst

/-- The HDU is what the tag of the `i`-th image says, with the cards of its keywords. -/
structure ReadsImage (xml : Str) (t : ImageTrace × ℕ) (h : Hdu) : Prop where
  stands : StandsAt "<Image".toList xml t.1.tag
  endsName : endsTagName xml t.1.tag = true
  hdu : ∃ tagEnd geom fmt, find ">".toList xml t.1.tag = some tagEnd ∧
    (∀ turns, xml.length < turns →
      attr turns (tagText xml t.1.tag tagEnd) "geometry".toList = some geom ∧
      attr turns (tagText xml t.1.tag tagEnd) "sampleFormat".toList = some fmt) ∧
    h = imageHdu t.2 geom fmt (t.1.keywords.map Prod.snd)
  keywords : ∀ k ∈ t.1.keywords, KeywordAt xml k.1 k.2

/-- The images come from tags, and their cards behind the geometry cards from keyword elements, all at
positions of their own, in the order of the text. -/
def Traced (xml : Str) (hdus : List Hdu) : Prop :=
  ∃ traces : List ImageTrace, (traces.flatMap ImageTrace.positions).Pairwise (· < ·) ∧
    List.Forall₂ (ReadsImage xml) traces.zipIdx hdus

/-! ### The loops end -/

/-- A loop that has enough turns left has one for the next round. -/
theorem forall_turns {P : ℕ → Prop} {size pos : ℕ} (hpos : pos ≤ size)
    (h : ∀ left, size ≤ pos + left → P (left + 1)) : ∀ turns, size < pos + turns → P turns := by
  intro turns hturns
  cases turns with
  | zero => omega
  | succ left => exact h left (by omega)

section Loops

variable {elem xml : Str} {pos k scope : ℕ}

theorem attrLoop_settles {name : Str} (hname : name ≠ []) (hpos : pos ≤ elem.length) :
    ∃ v, ∀ turns, elem.length < pos + turns → attrLoop elem name turns pos = some v := by
  induction hd : elem.length - pos using Nat.strong_induction_on generalizing pos with
  | _ d ih =>
    cases hf : find name elem pos with
    | none =>
      refine ⟨none, forall_turns hpos fun left _ => ?_⟩
      unfold attrLoop
      rw [hf]
    | some p =>
      have hle := le_of_find hf
      have hend := find_add_length_le hf hname
      have hlen := List.length_pos_iff.mpr hname
      cases ha : attrAt elem name p with
      | some v =>
        refine ⟨some v, forall_turns hpos fun left _ => ?_⟩
        unfold attrLoop
        rw [hf]
        dsimp only
        rw [ha]
      | none =>
        obtain ⟨v, hv⟩ := ih (elem.length - (p + name.length)) (by omega) hend rfl
        refine ⟨v, forall_turns hpos fun left hleft => ?_⟩
        unfold attrLoop
        rw [hf]
        dsimp only
        rw [ha]
        exact hv left (by omega)

theorem attr_settles (elem : Str) {name : Str} (hname : name ≠ []) :
    ∃ v, ∀ turns, elem.length < turns → attr turns elem name = some v := by
  obtain ⟨v, hv⟩ := attrLoop_settles hname (Nat.zero_le elem.length)
  exact ⟨v, fun turns hturns => hv turns (by omega)⟩

theorem length_tagText_le (xml : Str) (pos tagEnd : ℕ) :
    (tagText xml pos tagEnd).length ≤ xml.length := by
  unfold tagText
  rw [List.length_take, List.length_drop]
  omega

theorem keywordCard_settles (elem : Str) :
    ∃ card, ∀ turns, elem.length < turns → keywordCard turns elem = some card := by
  have hne : "name".toList ≠ [] ∧ "value".toList ≠ [] ∧ "comment".toList ≠ [] := by decide
  obtain ⟨name, hname⟩ := attr_settles elem hne.1
  obtain ⟨value, hvalue⟩ := attr_settles elem hne.2.1
  obtain ⟨comment, hcomment⟩ := attr_settles elem hne.2.2
  refine ⟨if name.getD [] = [] then none
    else some ⟨name.getD [], stripFitsValue (value.getD []), comment.getD []⟩, fun turns hturns => ?_⟩
  unfold keywordCard
  rw [hname turns hturns, hvalue turns hturns, hcomment turns hturns]
  show (if name.getD [] = [] then some none else _) = _
  split <;> rfl

theorem stripComments_settles (raw : Str) :
    ∃ xml : Str, xml.length ≤ raw.length ∧
      ∀ turns, raw.length < turns → stripComments turns raw = some xml := by
  induction hd : raw.length using Nat.strong_induction_on generalizing raw with
  | _ d ih =>
    subst hd
    suffices h : ∃ xml : Str, xml.length ≤ raw.length ∧
        ∀ left, raw.length ≤ left → stripComments (left + 1) raw = some xml by
      obtain ⟨xml, hxml, hstrip⟩ := h
      refine ⟨xml, hxml, fun turns hturns => ?_⟩
      cases turns with
      | zero => omega
      | succ left => exact hstrip left (by omega)
    cases raw with
    | nil => exact ⟨[], le_refl _, fun _ _ => rfl⟩
    | cons c cs =>
      by_cases hopen : StandsAt "<!--".toList (c :: cs) 0
      · cases hf : find "-->".toList (c :: cs) 4 with
        | none =>
          refine ⟨[], Nat.zero_le _, fun left _ => ?_⟩
          unfold stripComments
          rw [if_pos hopen, hf]
        | some e =>
          have hlen : ((c :: cs).drop (e + 3)).length < (c :: cs).length := by
            rw [List.length_drop, List.length_cons]
            omega
          obtain ⟨xml, hxml, hstrip⟩ := ih _ hlen _ rfl
          refine ⟨xml, by omega, fun left hleft => ?_⟩
          unfold stripComments
          rw [if_pos hopen, hf]
          exact hstrip left (by omega)
      · have hlen : cs.length < (c :: cs).length := Nat.lt_succ_self _
        obtain ⟨xml, hxml, hstrip⟩ := ih _ hlen cs rfl
        refine ⟨c :: xml, Nat.succ_le_succ hxml, fun left hleft => ?_⟩
        unfold stripComments
        rw [if_neg hopen, hstrip left (by omega)]
        rfl

/-! ### The keywords of an image -/

/-- The keywords from `k` on come from their elements, in order. -/
structure ReadsKeywords (xml : Str) (k scope : ℕ) (found : List (ℕ × Card)) : Prop where
  sorted : (found.map Prod.fst).Pairwise (· < ·)
  within : ∀ o ∈ found, k ≤ o.1 ∧ o.1 < scope
  read : ∀ o ∈ found, KeywordAt xml o.1 o.2

theorem readsKeywords_nil : ReadsKeywords xml k scope [] :=
  ⟨List.Pairwise.nil, nofun, nofun⟩

/-- One more keyword before those that follow its `>`. -/
theorem ReadsKeywords.cons {p tagEnd : ℕ} {card : Card} {found : List (ℕ × Card)} (hkp : k ≤ p)
    (hlt : p < tagEnd) (hp : p < scope) (hcard : KeywordAt xml p card)
    (h : ReadsKeywords xml tagEnd scope found) : ReadsKeywords xml k scope ((p, card) :: found) where
  sorted := by
    refine List.pairwise_cons.mpr ⟨fun q hq => ?_, h.sorted⟩
    obtain ⟨o, ho, rfl⟩ := List.mem_map.mp hq
    have := (h.within o ho).1
    omega
  within := by
    refine List.forall_mem_cons.mpr ⟨⟨hkp, hp⟩, fun o ho => ?_⟩
    have := h.within o ho
    omega
  read := List.forall_mem_cons.mpr ⟨hcard, h.read⟩

theorem ReadsKeywords.mono {k' : ℕ} {found : List (ℕ × Card)} (hk : k ≤ k')
    (h : ReadsKeywords xml k' scope found) : ReadsKeywords xml k scope found :=
  ⟨h.sorted, fun o ho => ⟨hk.trans (h.within o ho).1, (h.within o ho).2⟩, h.read⟩

/-- The loop from `k` adds these cards, if it has turns enough. -/
def LoopAdds (xml : Str) (scope k : ℕ) (found : List Card) : Prop :=
  ∀ turns, xml.length < turns → ∀ left, xml.length < k + left → ∀ cards,
    keywordLoop turns xml scope left k cards = some (cards ++ found)

theorem loopAdds_nil (hk : k ≤ xml.length)
    (h : ∀ turns left cards, keywordLoop turns xml scope (left + 1) k cards = some cards) :
    LoopAdds xml scope k [] := by
  refine fun turns _ => forall_turns hk fun left _ cards => ?_
  rw [h, List.append_nil]

/-- A round that goes on behind the `>` of an element adds its card, if any. -/
theorem LoopAdds.next {p tagEnd : ℕ} {card : Option Card} {found : List Card}
    (hk : k ≤ xml.length) (hf : find "<FITSKeyword".toList xml k = some p) (hp : p < scope)
    (he : find ">".toList xml p = some tagEnd) (hkend : k < tagEnd)
    (hcard : ∀ turns, xml.length < turns → keywordCard turns (tagText xml p tagEnd) = some card)
    (h : LoopAdds xml scope tagEnd found) : LoopAdds xml scope k (card.toList ++ found) := by
  refine fun turns hturns => forall_turns hk fun left hleft cards => ?_
  rw [keywordLoop, hf]
  dsimp only
  rw [if_pos hp, he]
  dsimp only
  rw [hcard turns hturns, ← List.append_assoc]
  exact h turns hturns left (by omega) _

/-- **The keyword loop.**  It ends, with cards that come from elements between `k` and the end of the
image. -/
theorem keywordLoop_settles (scope : ℕ) (hk : k ≤ xml.length) : ∃ found : List (ℕ × Card),
    ReadsKeywords xml k scope found ∧ LoopAdds xml scope k (found.map Prod.snd) := by
  induction hd : xml.length - k using Nat.strong_induction_on generalizing k with
  | _ d ih =>
    cases hf : find "<FITSKeyword".toList xml k with
    | none =>
      refine ⟨[], readsKeywords_nil, loopAdds_nil hk fun turns left cards => ?_⟩
      unfold keywordLoop
      rw [hf]
    | some p =>
      by_cases hp : p < scope
      · cases he : find ">".toList xml p with
        | none =>
          refine ⟨[], readsKeywords_nil, loopAdds_nil hk fun turns left cards => ?_⟩
          unfold keywordLoop
          rw [hf]
          dsimp only
          rw [if_pos hp, he]
        | some tagEnd =>
          have hkp := le_of_find hf
          have hlt : p < tagEnd := lt_of_find_singleton (standsAt_of_find hf) (by decide) he
          have hend : tagEnd ≤ xml.length := (find_eq_some_iff.mp he).1
          obtain ⟨found, hfound, hloop⟩ := ih (xml.length - tagEnd) (by omega) hend rfl
          obtain ⟨card, hcard⟩ := keywordCard_settles (tagText xml p tagEnd)
          have hread : ∀ turns, xml.length < turns →
              keywordCard turns (tagText xml p tagEnd) = some card :=
            fun turns hturns => hcard turns ((length_tagText_le xml p tagEnd).trans_lt hturns)
          have hadds := LoopAdds.next hk hf hp he (hkp.trans_lt hlt) hread hloop
          cases card with
          | none => exact ⟨found, hfound.mono (hkp.trans hlt.le), hadds⟩
          | some card =>
            have hat : KeywordAt xml p card := ⟨standsAt_of_find hf, tagEnd, he, hread⟩
            exact ⟨(p, card) :: found, hfound.cons hkp hlt hp hat, hadds⟩
      · refine ⟨[], readsKeywords_nil, loopAdds_nil hk fun turns left cards => ?_⟩
        unfold keywordLoop
        rw [hf]
        exact if_neg hp

/-! ### The images -/

theorem scopeEnd_le {tagEnd next : ℕ} (h : find "<Image".toList xml tagEnd = some next) :
    scopeEnd xml tagEnd ≤ next := by
  unfold scopeEnd
  rw [h]
  dsimp only
  split <;> omega

/-- The images from `pos` on are read from their tags, in order. -/
structure ReadsImages (xml : Str) (pos : ℕ) (traces : List ImageTrace) (n : ℕ) (new : List Hdu) :
    Prop where
  sorted : (traces.flatMap ImageTrace.positions).Pairwise (· < ·)
  after : ∀ q ∈ traces.flatMap ImageTrace.positions,
    ∃ next, find "<Image".toList xml pos = some next ∧ next ≤ q
  read : List.Forall₂ (ReadsImage xml) (traces.zipIdx n) new

theorem readsImages_nil {n : ℕ} : ReadsImages xml pos [] n [] :=
  ⟨List.Pairwise.nil, nofun, List.Forall₂.nil⟩

/-- A tag that is passed over. -/
theorem ReadsImages.skip {p n : ℕ} {traces : List ImageTrace} {new : List Hdu}
    (hf : find "<Image".toList xml pos = some p) (h : ReadsImages xml (p + 6) traces n new) :
    ReadsImages xml pos traces n new where
  sorted := h.sorted
  after q hq := by
    obtain ⟨next, hnext, hle⟩ := h.after q hq
    have := le_of_find hnext
    exact ⟨p, hf, by omega⟩
  read := h.read

/-- An image, and those behind its tag: its keywords stand before the next tag. -/
theorem ReadsImages.cons {p tagEnd n : ℕ} {found : List (ℕ × Card)} {hdu : Hdu}
    {traces : List ImageTrace} {new : List Hdu} (hf : find "<Image".toList xml pos = some p)
    (hlt : p < tagEnd) (hfound : ReadsKeywords xml tagEnd (scopeEnd xml tagEnd) found)
    (hhdu : ReadsImage xml (⟨p, found⟩, n) hdu) (h : ReadsImages xml tagEnd traces (n + 1) new) :
    ReadsImages xml pos (⟨p, found⟩ :: traces) n (hdu :: new) where
  sorted := by
    have hkeywords : ∀ q ∈ found.map Prod.fst, tagEnd ≤ q ∧ q < scopeEnd xml tagEnd := by
      intro q hq
      obtain ⟨o, ho, rfl⟩ := List.mem_map.mp hq
      exact hfound.within o ho
    have hrest : ∀ q ∈ traces.flatMap ImageTrace.positions,
        tagEnd ≤ q ∧ scopeEnd xml tagEnd ≤ q := by
      intro q hq
      obtain ⟨next, hnext, hle⟩ := h.after q hq
      exact ⟨(le_of_find hnext).trans hle, (scopeEnd_le hnext).trans hle⟩
    rw [List.flatMap_cons]
    refine List.pairwise_append.mpr ⟨List.pairwise_cons.mpr ⟨?_, hfound.sorted⟩, h.sorted, ?_⟩
    · intro q hq
      exact hlt.trans_le (hkeywords q hq).1
    · intro a ha b hb
      rcases List.mem_cons.mp ha with rfl | ha
      · exact hlt.trans_le (hrest b hb).1
      · exact (hkeywords a ha).2.trans_le (hrest b hb).2
  after q hq := by
    refine ⟨p, hf, ?_⟩
    rw [List.flatMap_cons] at hq
    rcases List.mem_append.mp hq with hq | hq
    · rcases List.mem_cons.mp hq with rfl | hq
      · exact le_refl _
      · obtain ⟨o, ho, rfl⟩ := List.mem_map.mp hq
        exact hlt.le.trans (hfound.within o ho).1
    · obtain ⟨next, hnext, hle⟩ := h.after q hq
      exact hlt.le.trans ((le_of_find hnext).trans hle)
  read := by
    rw [List.zipIdx_cons]
    exact List.Forall₂.cons hhdu h.read

/-- An image is read to its end, whatever follows its tag. -/
theorem readImage_settles {p tagEnd : ℕ} (hstands : StandsAt "<Image".toList xml p)
    (hname : endsTagName xml p = true) (he : find ">".toList xml p = some tagEnd) (r : Images) :
    ∃ found hdu r', ReadsKeywords xml tagEnd (scopeEnd xml tagEnd) found ∧
      ReadsImage xml (⟨p, found⟩, r.hdus.length) hdu ∧ r'.hdus = r.hdus ++ [hdu] ∧
      ∀ turns, xml.length < turns → readImage turns xml p tagEnd r = some r' := by
  have hne : "geometry".toList ≠ [] ∧ "sampleFormat".toList ≠ [] := by decide
  have hend : tagEnd ≤ xml.length := (find_eq_some_iff.mp he).1
  have hsize := length_tagText_le xml p tagEnd
  obtain ⟨geom, hgeom⟩ := attr_settles (tagText xml p tagEnd) hne.1
  obtain ⟨fmt, hfmt⟩ := attr_settles (tagText xml p tagEnd) hne.2
  obtain ⟨found, hfound, hloop⟩ := keywordLoop_settles (scopeEnd xml tagEnd) hend
  refine ⟨found, imageHdu r.hdus.length geom fmt (found.map Prod.snd),
    r.push geom fmt (found.map Prod.snd), hfound, ?_, rfl, fun turns hturns => ?_⟩
  · refine ⟨hstands, hname, ⟨tagEnd, geom, fmt, he, fun turns hturns => ?_, rfl⟩, hfound.read⟩
    exact ⟨hgeom turns (by omega), hfmt turns (by omega)⟩
  · unfold readImage
    rw [hgeom turns (by omega), hfmt turns (by omega), hloop turns hturns turns (by omega)]
    rfl

/-- **The image loop.**  It ends, with images read from the tags behind `pos`. -/
theorem imageLoop_settles (hpos : pos ≤ xml.length) (r : Images) : ∃ traces new r',
    ReadsImages xml pos traces r.hdus.length new ∧ r'.hdus = r.hdus ++ new ∧
      ∀ turns, xml.length < turns → ∀ left, xml.length < pos + left →
        imageLoop turns xml left pos r = some r' := by
  induction hd : xml.length - pos using Nat.strong_induction_on generalizing pos r with
  | _ d ih =>
    cases hf : find "<Image".toList xml pos with
    | none =>
      refine ⟨[], [], r, readsImages_nil, (List.append_nil _).symm, fun turns _ =>
        forall_turns hpos fun left _ => ?_⟩
      unfold imageLoop
      rw [hf]
    | some p =>
      have hle := le_of_find hf
      have hlen := find_add_length_le hf (by decide)
      rw [show "<Image".toList.length = 6 from rfl] at hlen
      cases hname : endsTagName xml p with
      | false =>
        obtain ⟨traces, new, r', hread, hr', hloop⟩ := ih (xml.length - (p + 6)) (by omega) hlen r rfl
        refine ⟨traces, new, r', hread.skip hf, hr', fun turns hturns =>
          forall_turns hpos fun left hleft => ?_⟩
        rw [imageLoop, hf]
        dsimp only
        rw [hname]
        exact hloop turns hturns left (by omega)
      | true =>
        cases he : find ">".toList xml p with
        | none =>
          refine ⟨[], [], r, readsImages_nil, (List.append_nil _).symm, fun turns _ =>
            forall_turns hpos fun left _ => ?_⟩
          rw [imageLoop, hf]
          dsimp only
          rw [hname, if_pos rfl, he]
        | some tagEnd =>
          have hlt : p < tagEnd := lt_of_find_singleton (standsAt_of_find hf) (by decide) he
          have hend : tagEnd ≤ xml.length := (find_eq_some_iff.mp he).1
          obtain ⟨found, hdu, r₁, hfound, hhdu, hr₁, hread₁⟩ :=
            readImage_settles (standsAt_of_find hf) hname he r
          have hn : r₁.hdus.length = r.hdus.length + 1 := by
            rw [hr₁, List.length_append, List.length_singleton]
          obtain ⟨traces, new, r', hread, hr', hloop⟩ := ih (xml.length - tagEnd) (by omega) hend r₁ rfl
          rw [hn] at hread
          refine ⟨⟨p, found⟩ :: traces, hdu :: new, r', hread.cons hf hlt hfound hhdu, ?_,
            fun turns hturns => forall_turns hpos fun left hleft => ?_⟩
          · rw [hr', hr₁, List.append_assoc]
            rfl
          · rw [imageLoop, hf]
            dsimp only
            rw [hname, if_pos rfl, he]
            dsimp only
            rw [hread₁ turns hturns]
            exact hloop turns hturns left (by omega)

end Loops

/-! ### The reader -/

/-- A header with an image, its images numbered and traced to the text of the file's header. -/
structure ReadSafely (file : Str) (header : RawHeader) : Prop where
  nonempty : header.hdus ≠ []
  numbered : header.hdus.map Hdu.index = List.range header.hdus.length
  traced : ∃ xml, (∀ turns, file.length < turns →
    stripComments turns (headerText file) = some xml) ∧ Traced xml header.hdus

/-- **The scan is safe on any text.**  On every file, as many turns as it is long are enough for each
loop; and what is read without an error comes from the tags and the keyword elements of the text
without comments, each used once, in its order. -/
theorem readXisf_safe (path : Str) (file : Option Str) :
    ∃ r, (∀ turns, (file.getD []).length < turns → readXisf turns path file = some r) ∧
      ∀ header, r = .ok header → ReadSafely (file.getD []) header := by
  cases file with
  | none => exact ⟨.error _, fun _ _ => rfl, nofun⟩
  | some file =>
    rw [Option.getD_some]
    unfold readXisf
    dsimp only
    by_cases hshort : file.length < 16
    · exact ⟨.error _, fun _ _ => if_pos hshort, nofun⟩
    simp only [if_neg hshort]
    by_cases hsig : file.take 8 ≠ "XISF0100".toList
    · exact ⟨.error _, fun _ _ => if_pos hsig, nofun⟩
    simp only [if_neg hsig]
    by_cases hrange : headerLength file = 0 ∨ maxHeaderBytes < headerLength file
    · exact ⟨.error _, fun _ _ => if_pos hrange, nofun⟩
    simp only [if_neg hrange]
    by_cases htrunc : file.length < 16 + headerLength file
    · exact ⟨.error _, fun _ _ => if_pos htrunc, nofun⟩
    simp only [if_neg htrunc]
    have hsize : (headerText file).length ≤ file.length := by
      unfold headerText
      rw [List.length_take, List.length_drop]
      omega
    obtain ⟨xml, hxml, hstrip⟩ := stripComments_settles (headerText file)
    have hstrip' : ∀ turns, file.length < turns →
        stripComments turns (headerText file) = some xml := fun turns hturns => hstrip turns (by omega)
    obtain ⟨traces, new, r, hread, hr, hloop⟩ := imageLoop_settles (Nat.zero_le xml.length) Images.none
    have hnew : r.hdus = new := hr
    refine ⟨if r.hdus = [] then
      .error ("XISF header contains no <Image> element: ".toList ++ path) else .ok r.header,
      fun turns hturns => ?_, fun header hheader => ?_⟩
    · rw [hstrip' turns hturns]
      show (imageLoop turns xml turns 0 .none >>= _) = _
      rw [hloop turns (by omega) turns (by omega)]
      show (if r.hdus = [] then _ else _) = _
      split <;> rfl
    · split at hheader
      · cases hheader
      · next hne =>
        cases hheader
        rw [← hnew] at hread
        exact ⟨hne, r.numbered, xml, hstrip', traces, hread.sorted, hread.read⟩

/-! ### A comment inside a tag's name -/

/-- A header whose one keyword tag is broken by a comment. -/
def brokenTag : Str :=
  "<Image><FITS<!---->Keyword name=\"A\" value=\"1\"/></Image>".toList

/-- The file with this header, of fewer than 256 characters. -/
def xisfFile (xml : Str) : Str :=
  "XISF0100".toList ++ Char.ofNat xml.length :: List.replicate 7 '\x00' ++ xml

/-- **A card that no occurrence in the header's own text stands for**: without the comment the two
parts of the tag's name stand together. -/
theorem brokenTag_card :
    headerText (xisfFile brokenTag) = brokenTag ∧
      (∀ pos, ¬ StandsAt "<FITSKeyword".toList brokenTag pos) ∧
      (readXisf ((xisfFile brokenTag).length + 1) "a.xisf".toList (some (xisfFile brokenTag))).map
          (Except.map fun header => header.hdus.map Hdu.cards)
        = some (.ok [geometryCards 0 0 0 ++ [⟨"A".toList, "1".toList, []⟩]]) := by
  have hnone : find "<FITSKeyword".toList brokenTag 0 = none := by decide
  exact ⟨by decide, fun pos => (find_eq_none_iff (by decide)).mp hnone pos (Nat.zero_le pos),
    by decide⟩

end StarBase.Fits
