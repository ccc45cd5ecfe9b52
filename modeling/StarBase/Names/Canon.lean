import StarBase.Text

/-!
# Canonical target names

Offline canonicalization of target names to their catalog form (`M31` to `M 31`, `NGC_7000` to
`NGC 7000`), with the placeholders that are no objects.
-/

namespace StarBase.Names

/-- Trim both ends and collapse internal runs of whitespace to a single blank.  `sp` says that a
run has just been passed, `seen` that something has been kept. -/
def tidyFrom (seen sp : Bool) : Str → Str
  | [] => []
  | c :: cs =>
    if isSpaceChar c then tidyFrom seen seen cs
    else if sp then ' ' :: c :: tidyFrom true false cs
    else c :: tidyFrom true false cs

def tidy (s : Str) : Str := tidyFrom false false s

/-- One catalog: the acronym emitted, the separator before the number, and the lowercase aliases
that map to it. -/
structure Rule where
  acronym : Str
  sep : Char
  aliases : List Str

def rules : List Rule :=
  [ ⟨"M".toList, ' ', ["messier".toList, "m".toList]⟩,
    ⟨"NGC".toList, ' ', ["ngc".toList]⟩,
    ⟨"IC".toList, ' ', ["ic".toList]⟩,
    ⟨"UGC".toList, ' ', ["ugc".toList]⟩,
    ⟨"PGC".toList, ' ', ["pgc".toList]⟩,
    ⟨"Arp".toList, ' ', ["arp".toList]⟩,
    ⟨"Abell".toList, ' ', ["abell".toList, "aco".toList]⟩,
    ⟨"Sh2".toList, '-', ["sharpless".toList, "sh2".toList, "sh".toList]⟩,
    ⟨"LBN".toList, ' ', ["lbn".toList]⟩,
    ⟨"LDN".toList, ' ', ["ldn".toList]⟩,
    ⟨"Cr".toList, ' ', ["collinder".toList, "cr".toList]⟩,
    ⟨"Mel".toList, ' ', ["melotte".toList, "mel".toList]⟩,
    ⟨"vdB".toList, ' ', ["vdb".toList]⟩,
    ⟨"Ced".toList, ' ', ["cederblad".toList, "ced".toList]⟩,
    ⟨"C".toList, ' ', ["caldwell".toList]⟩,
    ⟨"B".toList, ' ', ["barnard".toList, "b".toList]⟩ ]

/-- Messier numbers with an NGC or IC designation; `true` stands for NGC. -/
def messierXref : List (ℕ × Bool × ℕ) :=
  [ (1, true, 1952), (2, true, 7089), (3, true, 5272), (4, true, 6121), (5, true, 5904),
    (6, true, 6405), (7, true, 6475), (8, true, 6523), (9, true, 6333), (10, true, 6254),
    (11, true, 6705), (12, true, 6218), (13, true, 6205), (14, true, 6402), (15, true, 7078),
    (16, true, 6611), (17, true, 6618), (18, true, 6613), (19, true, 6273), (20, true, 6514),
    (21, true, 6531), (22, true, 6656), (23, true, 6494), (24, false, 4715), (25, false, 4725),
    (26, true, 6694), (27, true, 6853), (28, true, 6626), (29, true, 6913), (30, true, 7099),
    (31, true, 224), (32, true, 221), (33, true, 598), (34, true, 1039), (35, true, 2168),
    (36, true, 1960), (37, true, 2099), (38, true, 1912), (39, true, 7092), (41, true, 2287),
    (42, true, 1976), (43, true, 1982), (44, true, 2632), (46, true, 2437), (47, true, 2422),
    (48, true, 2548), (49, true, 4472), (50, true, 2323), (51, true, 5194), (52, true, 7654),
    (53, true, 5024), (54, true, 6715), (55, true, 6809), (56, true, 6779), (57, true, 6720),
    (58, true, 4579), (59, true, 4621), (60, true, 4649), (61, true, 4303), (62, true, 6266),
    (63, true, 5055), (64, true, 4826), (65, true, 3623), (66, true, 3627), (67, true, 2682),
    (68, true, 4590), (69, true, 6637), (70, true, 6681), (71, true, 6838), (72, true, 6981),
    (73, true, 6994), (74, true, 628), (75, true, 6864), (76, true, 650), (77, true, 1068),
    (78, true, 2068), (79, true, 1904), (80, true, 6093), (81, true, 3031), (82, true, 3034),
    (83, true, 5236), (84, true, 4374), (85, true, 4382), (86, true, 4406), (87, true, 4486),
    (88, true, 4501), (89, true, 4552), (90, true, 4569), (91, true, 4548), (92, true, 6341),
    (93, true, 2447), (94, true, 4736), (95, true, 3351), (96, true, 3368), (97, true, 3587),
    (98, true, 4192), (99, true, 4254), (100, true, 4321), (101, true, 5457), (102, true, 5866),
    (103, true, 581), (104, true, 4594), (105, true, 3379), (106, true, 4258), (107, true, 6171),
    (108, true, 3556), (109, true, 3992), (110, true, 205) ]

def messierName (e : ℕ × Bool × ℕ) : Str := "M ".toList ++ natText e.1

def otherName (e : ℕ × Bool × ℕ) : Str :=
  (if e.2.1 then "NGC ".toList else "IC ".toList) ++ natText e.2.2

/-- `NGC 224` to `M 31`. -/
def altToM (name : Str) : Option Str :=
  (messierXref.find? fun e => otherName e = name).map messierName

/-- `M 31` to `NGC 224`. -/
def mToAlt (name : Str) : Option Str :=
  (messierXref.find? fun e => messierName e = name).map otherName

def kPlaceholders : List Str :=
  ["".toList, "target".toList, "none".toList, "unknown".toList, "n/a".toList, "na".toList,
    "test".toList, "flatwizard".toList, "flat".toList, "dark".toList, "bias".toList,
    "object".toList, "no target".toList, "-".toList]

def isPlaceholder (low : Str) : Bool := kPlaceholders.contains low

/-- The number after an alias: digits, optionally one trailing letter, which is put in upper
case; empty if the rest is no clean number. -/
def catalogNumber (rest : Str) : Str :=
  let num := rest.dropWhile fun c => c = ' ' || c = '_' || c = '-'
  let digits := num.takeWhile Char.isDigit
  if digits = [] then []
  else match num.dropWhile Char.isDigit with
    | [] => num
    | [c] => if c.isAlpha then digits ++ [c.toUpper] else []
    | _ => []

structure Canon where
  canonical : Str
  catalog : Str
  placeholder : Bool
  changed : Bool
  deriving DecidableEq, Repr

/-- The name one alias of a catalog gives to the tidied name `s`, if it applies. -/
def applyAlias (s : Str) (rule : Rule) (name : Str) : Option Canon :=
  if !name.isPrefixOf (lower s) then none
  else
    let rest := s.drop name.length
    if (rest.head?.map Char.isAlpha).getD false then none
    else
      let num := catalogNumber rest
      if num = [] then none
      else
        let full := rule.acronym ++ rule.sep :: num
        let collapsed :=
          if rule.acronym = "NGC".toList ∨ rule.acronym = "IC".toList then altToM full else none
        match collapsed with
        | some m => some ⟨m, "M".toList, false, decide (m ≠ s)⟩
        | none => some ⟨full, rule.acronym, false, decide (full ≠ s)⟩

/-- Canonicalize a raw `OBJECT` value; what no catalog recognizes stays as tidied. -/
def canonicalize (raw : Str) : Canon :=
  let s := tidy raw
  if isPlaceholder (lower s) then ⟨s, [], true, false⟩
  else
    (rules.findSome? fun rule => rule.aliases.findSome? fun name => applyAlias s rule name).getD
      ⟨s, [], false, false⟩

/-- All equivalent canonical designations of a raw name. -/
def designations (raw : Str) : List Str :=
  let c := canonicalize raw
  if c.catalog = "M".toList then c.canonical :: (mToAlt c.canonical).toList else [c.canonical]

example : (canonicalize "NGC_224".toList).canonical = "M 31".toList := by decide

end StarBase.Names
