import Mathlib.Data.List.Infix
import Mathlib.Tactic.Common

/-!
# The `LIKE` patterns of SQL

* `Item`, `items` — a pattern as a list of what its places ask for: `%` a run, `_` one character,
  everything else itself, a backslash before a character takes away its meaning;
* `fits` — whether a text fits a pattern;
* `escape` — a text without wildcards;
* `literal` — the text that a pattern without wildcards asks for before a closing wildcard;
* `fits_escape_iff` — **PROVED**: escaped text before a wildcard asks for how a text begins;
* `fits_anywhere_iff` — **PROVED**: such a pattern between wildcards is a search for that text.
-/

namespace Like

/-! ### Patterns -/

/-- What a place of a pattern asks for. -/
inductive Item (α : Type)
  | many
  | one
  | char (c : α)
  deriving DecidableEq

def Item.map {α β : Type} (f : α → β) : Item α → Item β
  | .many => .many
  | .one => .one
  | .char c => .char (f c)

/-- A pattern as it is written, with a backslash as its escape character. -/
def items : List Char → List (Item Char)
  | [] => []
  | ['\\'] => [.char '\\']
  | '\\' :: c :: p => .char c :: items p
  | '%' :: p => .many :: items p
  | '_' :: p => .one :: items p
  | c :: p => .char c :: items p

section Fits

variable {α : Type} [DecidableEq α]

def fits : List (Item α) → List α → Bool
  | [], t => t.isEmpty
  | .many :: p, t => t.tails.any (fits p)
  | .one :: p, t =>
    match t with
    | [] => false
    | _ :: t => fits p t
  | .char c :: p, t =>
    match t with
    | [] => false
    | x :: t => decide (x = c) && fits p t

variable {p : List (Item α)} {l t : List α}

theorem fits_nil : fits ([] : List (Item α)) t = true ↔ t = [] := List.isEmpty_iff

theorem fits_many : fits (.many :: p) t = true ↔ ∃ u, u <:+ t ∧ fits p u = true := by
  show t.tails.any (fits p) = true ↔ _
  rw [List.any_eq_true]
  exact exists_congr fun u => and_congr_left fun _ => List.mem_tails u t

theorem fits_char {c : α} : fits (.char c :: p) t = true ↔ ∃ u, t = c :: u ∧ fits p u = true := by
  cases t with
  | nil => exact iff_of_false Bool.false_ne_true (by simp)
  | cons x t =>
    show (decide (x = c) && fits p t) = true ↔ _
    rw [Bool.and_eq_true, decide_eq_true_iff]
    constructor
    · rintro ⟨rfl, h⟩
      exact ⟨t, rfl, h⟩
    · rintro ⟨u, heq, h⟩
      cases heq
      exact ⟨rfl, h⟩

/-- Characters at the start of a pattern. -/
theorem fits_chars : fits (l.map .char ++ p) t = true ↔ ∃ u, t = l ++ u ∧ fits p u = true := by
  induction l generalizing t with
  | nil => simp
  | cons c l ih =>
    rw [List.map_cons, List.cons_append, fits_char]
    constructor
    · rintro ⟨u, rfl, h⟩
      obtain ⟨w, rfl, hw⟩ := ih.mp h
      exact ⟨w, rfl, hw⟩
    · rintro ⟨u, rfl, h⟩
      exact ⟨l ++ u, rfl, ih.mpr ⟨u, rfl, h⟩⟩

theorem fits_runs (n : ℕ) : fits (List.replicate (n + 1) .many) t = true := by
  induction n generalizing t with
  | zero => exact fits_many.mpr ⟨[], List.nil_suffix, rfl⟩
  | succ n ih => exact fits_many.mpr ⟨t, List.suffix_refl t, ih⟩

/-- A run before a run adds nothing. -/
theorem fits_many_many : fits (.many :: .many :: p) t = true ↔ fits (.many :: p) t = true := by
  rw [fits_many, fits_many]
  constructor
  · rintro ⟨u, hu, h⟩
    obtain ⟨w, hw, h⟩ := fits_many.mp h
    exact ⟨w, hw.trans hu, h⟩
  · rintro ⟨u, hu, h⟩
    exact ⟨u, hu, fits_many.mpr ⟨u, List.suffix_refl u, h⟩⟩

/-- Characters between runs are searched for. -/
theorem fits_infix (n : ℕ) :
    fits (.many :: (l.map .char ++ List.replicate (n + 1) .many)) t = true ↔ l <:+: t := by
  rw [fits_many]
  constructor
  · rintro ⟨u, hu, h⟩
    obtain ⟨w, rfl, -⟩ := fits_chars.mp h
    obtain ⟨a, rfl⟩ := hu
    exact ⟨a, w, List.append_assoc a l w⟩
  · rintro ⟨a, b, rfl⟩
    refine ⟨l ++ b, ⟨a, (List.append_assoc a l b).symm⟩, fits_chars.mpr ⟨b, rfl, fits_runs n⟩⟩

end Fits

/-! ### Escaped text -/

theorem items_plain {c : Char} {p : List Char} (hback : c ≠ '\\') (hmany : c ≠ '%')
    (hone : c ≠ '_') : items (c :: p) = .char c :: items p := by
  rw [items]
  · rintro rfl
    exact absurd rfl hback
  · rintro d q rfl
    exact absurd rfl hback
  · exact hmany
  · exact hone

/-- A text in which no character has a meaning of its own. -/
def escape (s : List Char) : List Char :=
  s.flatMap fun c => if c = '\\' ∨ c = '%' ∨ c = '_' then ['\\', c] else [c]

theorem items_escape_append (s p : List Char) : items (escape s ++ p) = s.map .char ++ items p := by
  induction s with
  | nil => rfl
  | cons c s ih =>
    unfold escape at *
    rw [List.flatMap_cons, List.append_assoc]
    by_cases hc : c = '\\' ∨ c = '%' ∨ c = '_'
    · rw [if_pos hc]
      show Item.char c :: items (_ ++ p) = _
      rw [ih]
      rfl
    · push Not at hc
      obtain ⟨hback, hmany, hone⟩ := hc
      rw [if_neg (by simp [hback, hmany, hone]), List.singleton_append]
      rw [items_plain hback hmany hone, ih]
      rfl

/-- **A beginning.**  Escaped text before a wildcard asks for how a text begins. -/
theorem fits_escape_iff {α : Type} [DecidableEq α] (weigh : Char → α) {s : List Char} {t : List α} :
    fits ((items (escape s ++ ['%'])).map (Item.map weigh)) t = true ↔ s.map weigh <+: t := by
  have hitems : (items (escape s ++ ['%'])).map (Item.map weigh) = (s.map weigh).map .char ++ [.many] := by
    rw [items_escape_append, List.map_append, List.map_map, List.map_map]
    rfl
  rw [hitems, fits_chars]
  constructor
  · rintro ⟨u, rfl, -⟩
    exact List.prefix_append _ u
  · rintro ⟨u, rfl⟩
    exact ⟨u, rfl, fits_runs 0⟩

/-! ### Patterns without wildcards -/

/-- The text that the pattern asks for; a backslash at its end takes the wildcard that follows. -/
def literal : List Char → List Char
  | [] => []
  | ['\\'] => ['%']
  | '\\' :: c :: p => c :: literal p
  | c :: p => c :: literal p

theorem literal_plain {c : Char} {p : List Char} (hback : c ≠ '\\') :
    literal (c :: p) = c :: literal p := by
  rw [literal]
  · rintro rfl
    exact absurd rfl hback
  · rintro d q rfl
    exact absurd rfl hback

/-- Before two wildcards, the text and at least one of them are left. -/
theorem items_before_wildcards (p : List Char) (h : ∀ c ∈ p, c ≠ '%' ∧ c ≠ '_') :
    ∃ n, items (p ++ ['%', '%']) =
      (literal p).map .char ++ List.replicate (n + 1) .many := by
  induction p using literal.induct with
  | case1 => exact ⟨1, rfl⟩
  | case2 => exact ⟨0, rfl⟩
  | case3 c p ih =>
    obtain ⟨n, hn⟩ := ih fun d hd => h d (List.mem_cons_of_mem _ (List.mem_cons_of_mem _ hd))
    refine ⟨n, ?_⟩
    show Item.char c :: items (p ++ ['%', '%']) = _
    rw [hn]
    rfl
  | case4 c p hlone hescape ih =>
    obtain ⟨n, hn⟩ := ih fun d hd => h d (List.mem_cons_of_mem _ hd)
    have hback : c ≠ '\\' := by
      rintro rfl
      cases p with
      | nil => exact hlone rfl rfl
      | cons d p => exact hescape d p rfl rfl
    obtain ⟨hmany, hone⟩ := h c List.mem_cons_self
    refine ⟨n, ?_⟩
    rw [List.cons_append, items_plain hback hmany hone, hn, literal_plain hback]
    rfl

/-- **A search.**  Between wildcards, a pattern without wildcards asks for its text anywhere. -/
theorem fits_anywhere_iff {α : Type} [DecidableEq α] (weigh : Char → α) {p : List Char}
    (h : ∀ c ∈ p, c ≠ '%' ∧ c ≠ '_') {t : List α} :
    fits ((items ('%' :: '%' :: p ++ ['%', '%'])).map (Item.map weigh)) t = true ↔
      (literal p).map weigh <:+: t := by
  obtain ⟨n, hn⟩ := items_before_wildcards p h
  have hitems : (items ('%' :: '%' :: p ++ ['%', '%'])).map (Item.map weigh) =
      .many :: .many :: (((literal p).map weigh).map .char ++ List.replicate (n + 1) .many) := by
    show (Item.many :: Item.many :: items (p ++ ['%', '%'])).map (Item.map weigh) = _
    rw [hn]
    simp [Item.map, Function.comp_def]
  rw [hitems, fits_many_many, fits_infix]

end Like
