import Mathlib

/-!
# Comma-separated records

Records of fields as RFC 4180 writes them, read character by character.  A line feed alone ends a
record too, and every character but the four that have a meaning is text.

* `step`, `finish`, `readFrom` — the reader;
* `Denotes` — a written field is read as a value, whatever stands before and behind it;
* `denotes_plain`, `denotes_quoted` — **PROVED**: a field of text, and one in quotation marks;
* `readFrom_row` — **PROVED**: a row of written fields is read as the record of their values;
* `readFrom_break` — **PROVED**: a line break in a field that is not quoted ends the record early.
-/

namespace Csv

/-! ### The reader -/

inductive Mode
  | fieldStart
  | plain
  | quoted
  | quoteSeen
  | returnSeen
  deriving DecidableEq

/-- Where the reader is: the field it reads, the fields of the record before it, the records. -/
structure State where
  mode : Mode
  field : List Char
  fields : List (List Char)
  records : List (List (List Char))

/-- Before a field. -/
def State.begin (fields : List (List Char)) (records : List (List (List Char))) : State :=
  ⟨.fieldStart, [], fields, records⟩

def State.push (s : State) (m : Mode) (c : Char) : State := { s with mode := m, field := s.field ++ [c] }

def State.closeField (s : State) : State := .begin (s.fields ++ [s.field]) s.records

def State.closeRecord (s : State) : State := .begin [] (s.records ++ [s.fields ++ [s.field]])

/-- What may stand behind a field. -/
def State.delimiter (s : State) (c : Char) : Option State :=
  if c = ',' then some s.closeField
  else if c = '\n' then some s.closeRecord
  else if c = '\r' then some { s with mode := .returnSeen }
  else none

def isText (c : Char) : Bool := c ≠ ',' && c ≠ '"' && c ≠ '\n' && c ≠ '\r'

def step (s : State) (c : Char) : Option State :=
  match s.mode with
  | .fieldStart =>
    if c = '"' then some { s with mode := .quoted }
    else if isText c then some (s.push .plain c) else s.delimiter c
  | .plain => if isText c then some (s.push .plain c) else s.delimiter c
  | .quoted => if c = '"' then some { s with mode := .quoteSeen } else some (s.push .quoted c)
  | .quoteSeen => if c = '"' then some (s.push .quoted c) else s.delimiter c
  | .returnSeen => if c = '\n' then some s.closeRecord else none

/-- The last record may end without a line break. -/
def finish (s : State) : Option (List (List (List Char))) :=
  match s.mode with
  | .fieldStart => some (if s.fields = [] then s.records else s.closeRecord.records)
  | .plain => some s.closeRecord.records
  | .quoteSeen => some s.closeRecord.records
  | .quoted => none
  | .returnSeen => none

def readFrom (s : State) (text : List Char) : Option (List (List (List Char))) :=
  (text.foldlM step s).bind finish

def read (text : List Char) : Option (List (List (List Char))) := readFrom (.begin [] []) text

theorem readFrom_cons (s : State) (c : Char) (t : List Char) :
    readFrom s (c :: t) = (step s c).bind fun s' => readFrom s' t := by
  unfold readFrom
  rw [List.foldlM_cons]
  cases step s c <;> rfl

theorem readFrom_step {s s' : State} {c : Char} (h : step s c = some s') (t : List Char) :
    readFrom s (c :: t) = readFrom s' t := by
  rw [readFrom_cons, h]
  rfl

/-! ### The records that are finished -/

theorem delimiter_records {s s' : State} {c : Char} (h : s.delimiter c = some s') :
    s.records <+: s'.records := by
  unfold State.delimiter at h
  split at h
  · cases h
    exact List.prefix_rfl
  split at h
  · cases h
    exact List.prefix_append _ _
  split at h
  · cases h
    exact List.prefix_rfl
  · cases h

theorem step_records {s s' : State} {c : Char} (h : step s c = some s') : s.records <+: s'.records := by
  unfold step at h
  split at h
  · split at h
    · cases h
      exact List.prefix_rfl
    split at h
    · cases h
      exact List.prefix_rfl
    · exact delimiter_records h
  · split at h
    · cases h
      exact List.prefix_rfl
    · exact delimiter_records h
  · split at h
    · cases h
      exact List.prefix_rfl
    · cases h
      exact List.prefix_rfl
  · split at h
    · cases h
      exact List.prefix_rfl
    · exact delimiter_records h
  · split at h
    · cases h
      exact List.prefix_append _ _
    · cases h

theorem finish_records {s : State} {rs : List (List (List Char))} (h : finish s = some rs) :
    s.records <+: rs := by
  have hclose : s.records <+: s.closeRecord.records := List.prefix_append _ _
  unfold finish at h
  split at h
  · cases h
    split
    · exact List.prefix_rfl
    · exact hclose
  · cases h
    exact hclose
  · cases h
    exact hclose
  · cases h
  · cases h

/-- A record that is finished stays. -/
theorem readFrom_records {s : State} {t : List Char} {rs : List (List (List Char))}
    (h : readFrom s t = some rs) : s.records <+: rs := by
  induction t generalizing s with
  | nil => exact finish_records h
  | cons c t ih =>
    rw [readFrom_cons] at h
    obtain ⟨s', hs', hrest⟩ := Option.bind_eq_some_iff.mp h
    exact (step_records hs').trans (ih hrest)

/-! ### Fields -/

/-- Written as `w`, the field `v` is read, before another field and at the end of its record. -/
def Denotes (w v : List Char) : Prop :=
  ∀ fields records t,
    readFrom (.begin fields records) (w ++ ',' :: t) = readFrom (.begin (fields ++ [v]) records) t ∧
    readFrom (.begin fields records) (w ++ '\n' :: t) = readFrom (.begin [] (records ++ [fields ++ [v]])) t

/-- The reader is where a field can end. -/
structure Ended (s : State) (fields : List (List Char)) (records : List (List (List Char)))
    (v : List Char) : Prop where
  mode : s.mode = .fieldStart ∨ s.mode = .plain ∨ s.mode = .quoteSeen
  field : s.field = v
  fields : s.fields = fields
  records : s.records = records

theorem isText_iff {c : Char} : isText c = true ↔ c ≠ ',' ∧ c ≠ '"' ∧ c ≠ '\n' ∧ c ≠ '\r' := by
  unfold isText
  simp only [Bool.and_eq_true, decide_eq_true_eq, and_assoc]

theorem Ended.step_delimiter {s : State} {fields : List (List Char)} {records : List (List (List Char))}
    {v : List Char} (h : Ended s fields records v) {c : Char} (hq : c ≠ '"') (hc : isText c = false) :
    step s c = s.delimiter c := by
  unfold step
  rcases h.mode with hm | hm | hm <;> rw [hm]
  · simp only [if_neg hq, hc]
    rfl
  · simp only [hc]
    rfl
  · simp only [if_neg hq]

theorem denotes_of_ended {w v : List Char}
    (h : ∀ fields records, ∃ s, Ended s fields records v ∧
      ∀ t, readFrom (.begin fields records) (w ++ t) = readFrom s t) : Denotes w v := by
  intro fields records t
  obtain ⟨s, hs, hread⟩ := h fields records
  rw [hread, hread]
  constructor
  · rw [readFrom_step (hs.step_delimiter (by decide) (by decide) : step s ',' = some s.closeField)]
    unfold State.closeField
    rw [hs.field, hs.fields, hs.records]
  · rw [readFrom_step (hs.step_delimiter (by decide) (by decide) : step s '\n' = some s.closeRecord)]
    unfold State.closeRecord
    rw [hs.field, hs.fields, hs.records]

/-- The reader is in a field that is not quoted, or before it. -/
structure Open (s : State) (fields : List (List Char)) (records : List (List (List Char)))
    (v : List Char) : Prop where
  mode : s.mode = .fieldStart ∨ s.mode = .plain
  field : s.field = v
  fields : s.fields = fields
  records : s.records = records

theorem Open.ended {s : State} {fields : List (List Char)} {records : List (List (List Char))}
    {v : List Char} (h : Open s fields records v) : Ended s fields records v :=
  ⟨h.mode.imp_right .inl, h.field, h.fields, h.records⟩

theorem Open.step_text {s : State} {fields : List (List Char)} {records : List (List (List Char))}
    {v : List Char} (h : Open s fields records v) {c : Char} (hc : isText c = true) :
    step s c = some (s.push .plain c) := by
  unfold step
  rcases h.mode with hm | hm <;> rw [hm]
  · simp only [if_neg (isText_iff.mp hc).2.1, if_pos hc]
  · simp only [if_pos hc]

theorem Open.read_text {s : State} {fields : List (List Char)} {records : List (List (List Char))}
    {v w : List Char} (h : Open s fields records v) (hw : ∀ c ∈ w, isText c = true) :
    ∃ s', Open s' fields records (v ++ w) ∧ ∀ t, readFrom s (w ++ t) = readFrom s' t := by
  induction w generalizing s v with
  | nil => exact ⟨s, (List.append_nil v).symm ▸ h, fun _ => rfl⟩
  | cons c w ih =>
    have hopen : Open (s.push .plain c) fields records (v ++ [c]) :=
      ⟨.inr rfl, congrArg (· ++ [c]) h.field, h.fields, h.records⟩
    obtain ⟨s', hs', hread⟩ := ih hopen fun d hd => hw d (List.mem_cons_of_mem c hd)
    rw [List.append_assoc, List.singleton_append] at hs'
    refine ⟨s', hs', fun t => ?_⟩
    rw [List.cons_append, readFrom_step (h.step_text (hw c List.mem_cons_self))]
    exact hread t

theorem open_begin (fields : List (List Char)) (records : List (List (List Char))) :
    Open (.begin fields records) fields records [] :=
  ⟨.inl rfl, rfl, rfl, rfl⟩

/-- **PROVED**: text is a field as it is. -/
theorem denotes_plain {w : List Char} (hw : ∀ c ∈ w, isText c = true) : Denotes w w :=
  denotes_of_ended fun fields records => by
    obtain ⟨s, hs, hread⟩ := (open_begin fields records).read_text hw
    exact ⟨s, hs.ended, hread⟩

/-- A value between quotation marks, its own ones doubled. -/
def quote (v : List Char) : List Char := '"' :: (v.flatMap fun c => if c = '"' then ['"', '"'] else [c]) ++ ['"']

theorem readFrom_quoted {s : State} (hs : s.mode = .quoted) (v t : List Char) :
    readFrom s ((v.flatMap fun c => if c = '"' then ['"', '"'] else [c]) ++ t) =
      readFrom { s with field := s.field ++ v } t := by
  induction v generalizing s with
  | nil =>
    rw [List.append_nil]
    rfl
  | cons c v ih =>
    have hpush : (s.push .quoted c).mode = .quoted := rfl
    have hfield : (s.push .quoted c).field ++ v = s.field ++ c :: v := by
      show s.field ++ [c] ++ v = _
      rw [List.append_assoc, List.singleton_append]
    have hgoal := ih hpush
    rw [hfield] at hgoal
    rw [List.flatMap_cons, List.append_assoc]
    by_cases hc : c = '"'
    · subst hc
      have h₁ : step s '"' = some { s with mode := .quoteSeen } := by
        unfold step
        rw [hs]
        rfl
      have h₂ : step { s with mode := .quoteSeen } '"' = some (s.push .quoted '"') := rfl
      rw [if_pos rfl, List.cons_append, readFrom_step h₁, List.cons_append, readFrom_step h₂, List.nil_append,
        hgoal]
      unfold State.push
      rw [← hs]
    · have h₁ : step s c = some (s.push .quoted c) := by
        unfold step
        rw [hs]
        simp only [if_neg hc]
      rw [if_neg hc, List.singleton_append, readFrom_step h₁, hgoal]
      unfold State.push
      rw [← hs]

/-- **PROVED**: between quotation marks every value can be written. -/
theorem denotes_quoted (v : List Char) : Denotes (quote v) v :=
  denotes_of_ended fun fields records => by
    refine ⟨⟨.quoteSeen, v, fields, records⟩, ⟨.inr (.inr rfl), rfl, rfl, rfl⟩, fun t => ?_⟩
    have hopen : step (.begin fields records) '"' = some ⟨.quoted, [], fields, records⟩ := rfl
    have hclose : step ⟨.quoted, v, fields, records⟩ '"' = some ⟨.quoteSeen, v, fields, records⟩ := rfl
    unfold quote
    rw [List.cons_append, List.cons_append, readFrom_step hopen, List.append_assoc, readFrom_quoted rfl,
      List.nil_append, List.singleton_append, readFrom_step hclose]

/-! ### Rows -/

/-- Written fields with commas between them and a line feed behind. -/
def row (ws : List (List Char)) : List Char := [','].intercalate ws ++ ['\n']

/-- **PROVED**: a row is read as one record, the values of its fields. -/
theorem readFrom_row {ws vs : List (List Char)} (h : List.Forall₂ Denotes ws vs) (hne : ws ≠ [])
    (fields : List (List Char)) (records : List (List (List Char))) (t : List Char) :
    readFrom (.begin fields records) (row ws ++ t) = readFrom (.begin [] (records ++ [fields ++ vs])) t := by
  induction h generalizing fields with
  | nil => exact absurd rfl hne
  | @cons w v ws vs hw hrest ih =>
    unfold row
    cases hrest with
    | nil =>
      rw [List.intercalate_singleton, List.append_assoc]
      exact (hw fields records t).2
    | @cons w' v' ws vs hw' hrest =>
      have htail := ih (List.cons_ne_nil w' ws) (fields ++ [v])
      unfold row at htail
      rw [List.intercalate_cons_cons, List.append_assoc, List.append_assoc, List.append_assoc,
        List.singleton_append, (hw fields records _).1, ← List.append_assoc, htail, List.append_assoc,
        List.singleton_append]

/-- **PROVED**: a field that is not quoted is cut at a line break, and the record ends there. -/
theorem readFrom_break {fields : List (List Char)} {records rs : List (List (List Char))} {a t : List Char}
    {c : Char} (ha : ∀ d ∈ a, isText d = true) (hc : c = '\n' ∨ c = '\r')
    (h : readFrom (.begin fields records) (a ++ c :: t) = some rs) : records ++ [fields ++ [a]] <+: rs := by
  obtain ⟨s, hs, hread⟩ := (open_begin fields records).read_text ha
  rw [List.nil_append] at hs
  have hclose : s.closeRecord = .begin [] (records ++ [fields ++ [a]]) := by
    unfold State.closeRecord
    rw [hs.field, hs.fields, hs.records]
  rw [hread] at h
  rcases hc with rfl | rfl
  · rw [readFrom_step (hs.ended.step_delimiter (by decide) (by decide) : step s '\n' = some s.closeRecord),
      hclose] at h
    exact readFrom_records h
  · rw [readFrom_step (hs.ended.step_delimiter (by decide) (by decide) :
      step s '\r' = some { s with mode := .returnSeen })] at h
    cases t with
    | nil => cases h
    | cons d t =>
      rw [readFrom_cons] at h
      obtain ⟨s', hs', hrest⟩ := Option.bind_eq_some_iff.mp h
      unfold step at hs'
      split at hs'
      all_goals try contradiction
      split at hs'
      · cases hs'
        have hprefix := readFrom_records hrest
        rw [show ({ s with mode := .returnSeen } : State).closeRecord = s.closeRecord from rfl, hclose] at hprefix
        exact hprefix
      · cases hs'

end Csv
