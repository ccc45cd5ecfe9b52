import StarBase.Index.StoreSpec
import StarBase.Lib.Transaction

/-!
# Storing a file when statements fail

`storeFile` statement by statement, in a transaction that is tried again after a deadlock or a lock
wait timeout.  Any statement of any attempt may fail.

* `storeHduTx`, `storeBodyTx` — the statements;
* `storeFileTx` — up to ten attempts;
* `storeBodyTx_quiet` — **PROVED**: without errors, the transaction of `storeFile`;
* `storeFileTx_error`, `storeFileTx_ok` — **PROVED**: attempts that fail leave every row, attempts
  that return do so with one `storeFile` on the rows there were.

A statement that fails has no effect, and the transaction of a failed attempt is undone whether or not
the `ROLLBACK` is answered.
-/

namespace StarBase

open Relational Extract Transactions

/-! ### What is thrown -/

/-- An error of the server under its number, or an exception of the program. -/
inductive StoreError
  | server (errno : ℕ)
  | thrown (e : Thrown)
  deriving DecidableEq, Repr

/-- A deadlock or a lock wait timeout. -/
def StoreError.retryable : StoreError → Bool
  | .server errno => errno = 1213 || errno = 1205
  | .thrown _ => false

section Attempts

variable [Host]

abbrev StoreTx (α : Type) := Tx StoreState StoreError α

/-- A statement that changes the database, or is rejected. -/
def change (f : IndexDb → Except Thrown IndexDb) : StoreTx Unit := statement fun s =>
  match f s.db with
  | .ok db => (.ok (), { s with db := db })
  | .error e => (.error (.thrown e), s)

/-- A statement that reads. -/
def select {α : Type} (f : IndexDb → α) : StoreTx α := statement fun s => (.ok (f s.db), s)

def throwTx {α : Type} (e : Thrown) : StoreTx α := step fun s => (.error (.thrown e), s)

/-! ### Equipment -/

/-- `cameras` or `filters` in the database. -/
structure NameTable where
  get : IndexDb → Table nameKeying
  set : IndexDb → Table nameKeying → IndexDb

def cameraTable : NameTable := ⟨IndexDb.cameras, fun db T => { db with cameras := T }⟩

def filterTable : NameTable := ⟨IndexDb.filters, fun db T => { db with filters := T }⟩

/-- `INSERT IGNORE`, then `SELECT id`. -/
def internTx (t : NameTable) (width : ℕ) (name : Str) : StoreTx (Option ℕ) := do
  change fun db => .ok (t.set db
    ((t.get db).upsert _ (newNamed width name) (.keep _)))
  select fun db => ((t.get db).get (Host.collate name)).map NamedRow.id

def lookupCameraTx (reg : EquipmentRegistry) (raw : Str) : StoreTx (Option ℕ) :=
  match reg.cameraAliases.find? fun a => hasSubstring (lower a.1) (lower raw) with
  | some a => pure (some a.2)
  | none =>
    let model := baseModel raw
    if model = [] then pure none
    else match reg.camerasByModel.lookup (lower model) with
      | some i => pure (some i)
      | none => internTx cameraTable 64 model

def lookupFilterTx (reg : EquipmentRegistry) (raw : Str) : StoreTx (Option ℕ) :=
  match reg.filterAliases.find? fun a => lower raw = lower a.1 with
  | some a => pure (some a.2)
  | none =>
    match reg.filtersByName.lookup (lower raw) with
    | some i => pure (some i)
    | none => internTx filterTable 32 raw

/-- The cached id, or the one looked up, which is cached. -/
def cachedTx (cached : Caches → Option (Option ℕ)) (remember : Caches → Option ℕ → Caches)
    (look : StoreTx (Option ℕ)) : StoreTx (Option ℕ) := do
  let known ← step fun s => (.ok (cached s.caches), s)
  match known with
  | some found => pure found
  | none => do
    let id ← look
    step fun s => (.ok id, { s with caches := remember s.caches id })

def resolveCameraTx (reg : EquipmentRegistry) (raw : Str) : StoreTx (Option ℕ) :=
  cachedTx (fun c => c.camera.lookup (lower raw))
    (fun c id => { c with camera := (lower raw, id) :: c.camera }) (lookupCameraTx reg raw)

def resolveFilterTx (reg : EquipmentRegistry) (raw : Str) : StoreTx (Option ℕ) :=
  if raw = [] then pure none
  else cachedTx (fun c => c.filter.lookup (lower raw))
    (fun c id => { c with filter := (lower raw, id) :: c.filter }) (lookupFilterTx reg raw)

def lookupIfTx (look : Str → StoreTx (Option ℕ)) : Option Str → StoreTx (Option ℕ)
  | some r => look r
  | none => pure none

def resolveEquipmentTx (reg : EquipmentRegistry) (f : ResolvedFrame) : StoreTx EquipmentIds := do
  let cam ← lookupIfTx (resolveCameraTx reg) f.instrumeRaw
  let filt ← lookupIfTx (resolveFilterTx reg) f.filterRaw
  let rig := matchRig reg cam f.focalLenMm
  pure
    { cameraId := cam
      rigId := rig.map RigRow.id
      filterId := filt
      siteId := (rig.bind RigRow.siteId).orElse fun _ => reg.defaultSiteId }

/-! ### The transaction -/

/-- `INSERT INTO frame_keywords`. -/
def IndexDb.addCards (db : IndexDb) (frameId : ℕ) (cards : List Card) : Except Thrown IndexDb :=
  if cardsAccepted cards = false then .error dataError
  else .ok { db with keywords := db.keywords ++ cardRows frameId cards }

/-- The header cards of one frame: clear and reinsert. -/
def putCardsTx (frameId : ℕ) (cards : List Card) : StoreTx Unit := do
  change fun db => .ok (db.replaceKeywords frameId [])
  if cards = [] then pure () else change fun db => db.addCards frameId cards

/-- The cards of the frame that was read back. -/
def storeCardsTx (cards : List Card) : Option FrameRow → StoreTx Unit
  | none => throwTx (.std "store_file: could not read back frame id".toList)
  | some frame => putCardsTx frame.id cards

/-- One image HDU. -/
def storeHduTx (ctx : StoreContext) (fileId : ℕ) (h : Hdu) : StoreTx Unit := do
  let f ← step fun s => ((resolve h ctx.mapping ctx.site).mapError .thrown, s)
  let ids ← resolveEquipmentTx ctx.registry f
  change fun db => db.putFrame fileId h f ids
  let frame ← select fun db => db.frames.get (fileId, h.index)
  storeCardsTx h.cards frame

def storeHdusTx (ctx : StoreContext) (fileId : ℕ) : List Hdu → StoreTx Unit
  | [] => pure ()
  | h :: hs => do
    storeHduTx ctx fileId h
    storeHdusTx ctx fileId hs

/-- The frames of the file that was read back. -/
def storeFramesTx (ctx : StoreContext) (header : RawHeader) : Option FileRow → StoreTx Unit
  | none => throwTx (.std "store_file: could not read back file id".toList)
  | some row => storeHdusTx ctx row.id header.imageHdus

/-- `INSERT INTO files ... ON DUPLICATE KEY UPDATE`. -/
def IndexDb.putFile (db : IndexDb) (now : Micros) (info : FileInfo) : Except Thrown IndexDb :=
  if info.accepted = false then .error dataError
  else .ok (db.upsertFile info.key (info.newRow now) (info.storedRow now))

/-- The statements between `START TRANSACTION` and `COMMIT`. -/
def storeBodyTx (ctx : StoreContext) (now : Micros) (info : FileInfo) (header : RawHeader) :
    StoreTx Unit := do
  change fun db => db.putFile now info
  let row ← select fun db => db.files.get info.key
  storeFramesTx ctx header row

/-- The rows as before; the counters and the caches keep what was done to them. -/
def undo (s t : StoreState) : StoreState := { t with db := s.db.rollback t.db }

def storeFileOnce (ctx : StoreContext) (now : Micros) (info : FileInfo) (header : RawHeader) :
    StoreTx Unit :=
  transaction undo (storeBodyTx ctx now info header)

/-- Ten attempts at most; `clock` gives the server's time in each. -/
def storeFileTx (ctx : StoreContext) (clock : ℕ → Micros) (info : FileInfo) (header : RawHeader) :
    StoreTx Unit :=
  retry StoreError.retryable (fun k => storeFileOnce ctx (clock k) info header) 9

/-! ### Runs without errors -/

theorem change_ok {f : IndexDb → Except Thrown IndexDb} {s : StoreState} {db : IndexDb}
    (h : f s.db = .ok db) : change f s [] = ⟨.ok (), { s with db := db }, []⟩ := by
  unfold change
  rw [statement_quiet, h]

theorem change_error {f : IndexDb → Except Thrown IndexDb} {s : StoreState} {e : Thrown}
    (h : f s.db = .error e) : change f s [] = ⟨.error (.thrown e), s, []⟩ := by
  unfold change
  rw [statement_quiet, h]

theorem select_quiet {α : Type} (f : IndexDb → α) (s : StoreState) :
    select f s [] = ⟨.ok (f s.db), s, []⟩ := rfl

theorem lookupCameraTx_quiet (reg : EquipmentRegistry) (raw : Str) (s : StoreState) :
    lookupCameraTx reg raw s [] = ⟨.ok (lookupCamera reg raw s.db.cameras).1,
      { s with db := { s.db with cameras := (lookupCamera reg raw s.db.cameras).2 } }, []⟩ := by
  unfold lookupCameraTx lookupCamera
  cases reg.cameraAliases.find? fun a => hasSubstring (lower a.1) (lower raw) with
  | some a => rfl
  | none =>
    dsimp only
    by_cases hmodel : baseModel raw = []
    · rw [if_pos hmodel, if_pos hmodel]
      rfl
    · rw [if_neg hmodel, if_neg hmodel]
      cases reg.camerasByModel.lookup (lower (baseModel raw)) with
      | some i => rfl
      | none => rfl

theorem lookupFilterTx_quiet (reg : EquipmentRegistry) (raw : Str) (s : StoreState) :
    lookupFilterTx reg raw s [] = ⟨.ok (lookupFilter reg raw s.db.filters).1,
      { s with db := { s.db with filters := (lookupFilter reg raw s.db.filters).2 } }, []⟩ := by
  unfold lookupFilterTx lookupFilter
  cases reg.filterAliases.find? fun a => lower raw = lower a.1 with
  | some a => rfl
  | none =>
    cases reg.filtersByName.lookup (lower raw) with
    | some i => rfl
    | none => rfl

section Cached

variable {cached : Caches → Option (Option ℕ)} {remember : Caches → Option ℕ → Caches}
variable {look : StoreTx (Option ℕ)} {s t : StoreState} {found id : Option ℕ}

theorem cachedTx_hit (h : cached s.caches = some found) :
    cachedTx cached remember look s [] = ⟨.ok found, s, []⟩ := by
  unfold cachedTx
  rw [bind_of (step_apply s [] _), h]
  rfl

theorem cachedTx_miss (h : cached s.caches = none) (hlook : look s [] = ⟨.ok id, t, []⟩) :
    cachedTx cached remember look s [] =
      ⟨.ok id, { t with caches := remember t.caches id }, []⟩ := by
  unfold cachedTx
  rw [bind_of (step_apply s [] _), h]
  show (look >>= _) s [] = _
  rw [bind_of hlook]
  rfl

end Cached

theorem resolveCameraTx_quiet (reg : EquipmentRegistry) (raw : Str) (s : StoreState) :
    resolveCameraTx reg raw s [] =
      ⟨.ok (resolveCamera reg raw s).1, (resolveCamera reg raw s).2, []⟩ := by
  unfold resolveCameraTx resolveCamera
  cases h : s.caches.camera.lookup (lower raw) with
  | some found => exact cachedTx_hit h
  | none => exact cachedTx_miss h (lookupCameraTx_quiet reg raw s)

theorem resolveFilterTx_quiet (reg : EquipmentRegistry) (raw : Str) (s : StoreState) :
    resolveFilterTx reg raw s [] =
      ⟨.ok (resolveFilter reg raw s).1, (resolveFilter reg raw s).2, []⟩ := by
  unfold resolveFilterTx resolveFilter
  by_cases hraw : raw = []
  · rw [if_pos hraw, if_pos hraw]
    rfl
  · rw [if_neg hraw, if_neg hraw]
    cases h : s.caches.filter.lookup (lower raw) with
    | some found => exact cachedTx_hit h
    | none => exact cachedTx_miss h (lookupFilterTx_quiet reg raw s)

theorem lookupIfTx_quiet {tx : Str → StoreTx (Option ℕ)}
    {look : Str → StoreState → Option ℕ × StoreState}
    (h : ∀ raw s, tx raw s [] = ⟨.ok (look raw s).1, (look raw s).2, []⟩) (raw : Option Str)
    (s : StoreState) :
    lookupIfTx tx raw s [] = ⟨.ok (lookupIf look raw s).1, (lookupIf look raw s).2, []⟩ := by
  cases raw with
  | none => rfl
  | some r => exact h r s

theorem resolveEquipmentTx_quiet (reg : EquipmentRegistry) (f : ResolvedFrame) (s : StoreState) :
    resolveEquipmentTx reg f s [] =
      ⟨.ok (resolveEquipment reg f s).1, (resolveEquipment reg f s).2, []⟩ := by
  unfold resolveEquipmentTx
  rw [bind_of (lookupIfTx_quiet (resolveCameraTx_quiet reg) f.instrumeRaw s),
    bind_of (lookupIfTx_quiet (resolveFilterTx_quiet reg) f.filterRaw _)]
  rfl

/-- Both return in the same store, or both fail. -/
inductive SameRun : Except Thrown Unit × StoreState → Outcome StoreState StoreError Unit → Prop
  | ok (t : StoreState) : SameRun (.ok (), t) ⟨.ok (), t, []⟩
  | error (e : Thrown) (t t' : StoreState) : SameRun (.error e, t) ⟨.error (.thrown e), t', []⟩

/-- Clearing and reinserting the cards replaces them. -/
theorem putCardsTx_quiet (i : ℕ) (cards : List Card) (s : StoreState) :
    (∃ db, s.db.putCards i cards = .ok db ∧
      putCardsTx i cards s [] = ⟨.ok (), { s with db := db }, []⟩) ∨
    ∃ e t, s.db.putCards i cards = .error e ∧ putCardsTx i cards s [] = ⟨.error (.thrown e), t, []⟩ := by
  have hclear : change (fun db => .ok (db.replaceKeywords i [])) s [] =
      ⟨.ok (), { s with db := s.db.replaceKeywords i [] }, []⟩ := change_ok rfl
  unfold putCardsTx IndexDb.putCards
  rw [bind_of hclear]
  by_cases hcards : cardsAccepted cards = false
  · have hne : cards ≠ [] := by
      rintro rfl
      cases hcards
    rw [if_pos hcards, if_neg hne]
    have hreject : (s.db.replaceKeywords i []).addCards i cards = .error dataError := if_pos hcards
    exact Or.inr ⟨_, _, rfl, change_error hreject⟩
  · rw [if_neg hcards]
    refine Or.inl ⟨_, rfl, ?_⟩
    by_cases hne : cards = []
    · rw [if_pos hne, hne]
      rfl
    · rw [if_neg hne]
      have hadd : (s.db.replaceKeywords i []).addCards i cards =
          .ok (s.db.replaceKeywords i (cardRows i cards)) := by
        unfold IndexDb.addCards IndexDb.replaceKeywords
        rw [if_neg hcards, List.append_nil]
      exact change_ok hadd

/-- One HDU without errors. -/
theorem storeHduTx_quiet (ctx : StoreContext) (fid : ℕ) (h : Hdu) (s : StoreState) :
    SameRun (storeHdu ctx fid h s) (storeHduTx ctx fid h s []) := by
  unfold storeHdu storeHduTx
  cases hres : resolve h ctx.mapping ctx.site with
  | error e => exact .error e _ _
  | ok f =>
    have hread : step (fun s : StoreState => ((Except.ok f : Except Thrown ResolvedFrame).mapError
        StoreError.thrown, s)) s [] = ⟨.ok f, s, []⟩ := rfl
    rw [bind_of hread, bind_of (resolveEquipmentTx_quiet ctx.registry f s)]
    dsimp only
    cases hput : (resolveEquipment ctx.registry f s).2.db.putFrame fid h f
        (resolveEquipment ctx.registry f s).1 with
    | error e =>
      rw [bind_apply, change_error hput]
      exact .error e _ _
    | ok db =>
      rw [bind_of (change_ok hput), bind_of (select_quiet _ _)]
      dsimp only
      cases hget : db.frames.get (fid, h.index) with
      | none => exact .error _ _ _
      | some frame =>
        dsimp only [storeCardsTx]
        rcases putCardsTx_quiet frame.id h.cards { (resolveEquipment ctx.registry f s).2 with db := db }
          with ⟨db', hcards, hrun⟩ | ⟨e, t, hcards, hrun⟩
        · rw [hrun, show db.putCards frame.id h.cards = .ok db' from hcards]
          exact .ok _
        · rw [hrun, show db.putCards frame.id h.cards = .error e from hcards]
          exact .error e _ t

theorem storeHdusTx_quiet (ctx : StoreContext) (fid : ℕ) (hdus : List Hdu) :
    ∀ s, SameRun (storeHdus ctx fid hdus s) (storeHdusTx ctx fid hdus s []) := by
  induction hdus with
  | nil => exact fun s => .ok s
  | cons h hs ih =>
    intro s
    unfold storeHdus storeHdusTx
    have hone := storeHduTx_quiet ctx fid h s
    revert hone
    generalize storeHdu ctx fid h s = r, hrun : storeHduTx ctx fid h s [] = o
    intro hone
    cases hone with
    | ok t =>
      rw [bind_of hrun]
      exact ih t
    | error e t t' =>
      rw [bind_apply, hrun]
      exact .error e t t'

/-- **Without errors the statements are those of the transaction.** -/
theorem storeBodyTx_quiet (ctx : StoreContext) (now : Micros) (info : FileInfo)
    (header : RawHeader) (s : StoreState) :
    SameRun (storeBody ctx now info header s) (storeBodyTx ctx now info header s []) := by
  unfold storeBody storeBodyTx
  by_cases hinfo : info.accepted = false
  · rw [if_pos hinfo]
    have hreject : s.db.putFile now info = .error dataError := if_pos hinfo
    rw [bind_apply, change_error hreject]
    exact .error _ _ _
  · rw [if_neg hinfo]
    have hput : s.db.putFile now info =
        .ok (s.db.upsertFile info.key (info.newRow now) (info.storedRow now)) := if_neg hinfo
    rw [bind_of (change_ok hput), bind_of (select_quiet _ _)]
    dsimp only
    cases (s.db.upsertFile info.key (info.newRow now) (info.storedRow now)).files.get info.key with
    | none => exact .error _ _ _
    | some row => exact storeHdusTx_quiet ctx row.id header.imageHdus _

/-! ### Runs with errors -/

/-- What holds of a known id and of a name that is interned holds of a camera lookup. -/
theorem lookupCameraTx_rule {P : StoreTx (Option ℕ) → Prop} (hpure : ∀ found, P (pure found))
    (hintern : ∀ width name, P (internTx cameraTable width name)) (reg : EquipmentRegistry)
    (raw : Str) : P (lookupCameraTx reg raw) := by
  unfold lookupCameraTx
  split
  · exact hpure _
  · dsimp only
    split
    · exact hpure _
    · split
      · exact hpure _
      · exact hintern _ _

theorem lookupFilterTx_rule {P : StoreTx (Option ℕ) → Prop} (hpure : ∀ found, P (pure found))
    (hintern : ∀ width name, P (internTx filterTable width name)) (reg : EquipmentRegistry)
    (raw : Str) : P (lookupFilterTx reg raw) := by
  unfold lookupFilterTx
  split
  · exact hpure _
  · split
    · exact hpure _
    · exact hintern _ _

theorem lawful_change (f : IndexDb → Except Thrown IndexDb) : Lawful (change f) :=
  lawful_statement _

theorem lawful_select {α : Type} (f : IndexDb → α) : Lawful (select f) := lawful_statement _

theorem lawful_intern (t : NameTable) (width : ℕ) (name : Str) : Lawful (internTx t width name) :=
  lawful_bind (lawful_change _) fun _ => lawful_select _

theorem lawful_cached {cached : Caches → Option (Option ℕ)}
    {remember : Caches → Option ℕ → Caches} {look : StoreTx (Option ℕ)} (h : Lawful look) :
    Lawful (cachedTx cached remember look) := by
  refine lawful_bind (lawful_step _) fun known => ?_
  cases known with
  | some found => exact lawful_pure _
  | none => exact lawful_bind h fun _ => lawful_step _

theorem lawful_resolveCamera (reg : EquipmentRegistry) (raw : Str) :
    Lawful (resolveCameraTx reg raw) :=
  lawful_cached (lookupCameraTx_rule lawful_pure (lawful_intern cameraTable) reg raw)

theorem lawful_resolveFilter (reg : EquipmentRegistry) (raw : Str) :
    Lawful (resolveFilterTx reg raw) := by
  unfold resolveFilterTx
  split
  · exact lawful_pure _
  · exact lawful_cached (lookupFilterTx_rule lawful_pure (lawful_intern filterTable) reg raw)

theorem lawful_lookupIf {look : Str → StoreTx (Option ℕ)} (h : ∀ raw, Lawful (look raw))
    (raw : Option Str) : Lawful (lookupIfTx look raw) := by
  cases raw with
  | none => exact lawful_pure _
  | some r => exact h r

theorem lawful_resolveEquipment (reg : EquipmentRegistry) (f : ResolvedFrame) :
    Lawful (resolveEquipmentTx reg f) :=
  lawful_bind (lawful_lookupIf (lawful_resolveCamera reg) _) fun _ =>
    lawful_bind (lawful_lookupIf (lawful_resolveFilter reg) _) fun _ => lawful_pure _

theorem lawful_storeCards (cards : List Card) (frame : Option FrameRow) :
    Lawful (storeCardsTx cards frame) := by
  cases frame with
  | none => exact lawful_step _
  | some frame =>
    refine lawful_bind (lawful_change _) fun _ => ?_
    split
    · exact lawful_pure _
    · exact lawful_change _

theorem lawful_storeHdu (ctx : StoreContext) (fid : ℕ) (h : Hdu) :
    Lawful (storeHduTx ctx fid h) :=
  lawful_bind (lawful_step _) fun f =>
    lawful_bind (lawful_resolveEquipment ctx.registry f) fun _ =>
      lawful_bind (lawful_change _) fun _ =>
        lawful_bind (lawful_select _) fun _ => lawful_storeCards _ _

theorem lawful_storeHdus (ctx : StoreContext) (fid : ℕ) (hdus : List Hdu) :
    Lawful (storeHdusTx ctx fid hdus) := by
  induction hdus with
  | nil => exact lawful_pure _
  | cons h hs ih => exact lawful_bind (lawful_storeHdu ctx fid h) fun _ => ih

theorem lawful_storeBody (ctx : StoreContext) (now : Micros) (info : FileInfo)
    (header : RawHeader) : Lawful (storeBodyTx ctx now info header) := by
  refine lawful_bind (lawful_change _) fun _ => lawful_bind (lawful_select _) fun row => ?_
  cases row with
  | none => exact lawful_step _
  | some row => exact lawful_storeHdus ctx row.id _

/-! ### Attempts -/

/-- The rows of `d` are those of `db`; counters may have moved. -/
structure RowsKept (db d : IndexDb) : Prop where
  files : d.files.rows = db.files.rows
  frames : d.frames.rows = db.frames.rows
  keywords : d.keywords = db.keywords
  cameras : d.cameras.rows = db.cameras.rows
  filters : d.filters.rows = db.filters.rows
  operator : OperatorKept db d

theorem RowsKept.refl (db : IndexDb) : RowsKept db db :=
  ⟨rfl, rfl, rfl, rfl, rfl, OperatorKept.refl db⟩

theorem RowsKept.trans {a b c : IndexDb} (hab : RowsKept a b) (hbc : RowsKept b c) :
    RowsKept a c :=
  ⟨hbc.files.trans hab.files, hbc.frames.trans hab.frames, hbc.keywords.trans hab.keywords,
    hbc.cameras.trans hab.cameras, hbc.filters.trans hab.filters, hab.operator.trans hbc.operator⟩

theorem rowsKept_rollback (db t : IndexDb) : RowsKept db (db.rollback t) :=
  ⟨rfl, rfl, rfl, rfl, rfl, ⟨rfl, rfl, rfl⟩⟩

/-- What is cached stays cached. -/
structure CachesGrow (c c' : Caches) : Prop where
  camera : ∀ key found, c.camera.lookup key = some found → c'.camera.lookup key = some found
  filter : ∀ key found, c.filter.lookup key = some found → c'.filter.lookup key = some found

omit [Host] in
theorem CachesGrow.refl (c : Caches) : CachesGrow c c := ⟨fun _ _ h => h, fun _ _ h => h⟩

omit [Host] in
theorem CachesGrow.trans {a b c : Caches} (hab : CachesGrow a b) (hbc : CachesGrow b c) :
    CachesGrow a c :=
  ⟨fun key found h => hbc.camera key found (hab.camera key found h),
    fun key found h => hbc.filter key found (hab.filter key found h)⟩

/-- The rows are as before, and nothing cached is lost. -/
structure StateKept (s t : StoreState) : Prop where
  rows : RowsKept s.db t.db
  caches : CachesGrow s.caches t.caches

theorem StateKept.refl (s : StoreState) : StateKept s s := ⟨RowsKept.refl _, CachesGrow.refl _⟩

theorem StateKept.trans {s t u : StoreState} (hst : StateKept s t) (htu : StateKept t u) :
    StateKept s u :=
  ⟨hst.rows.trans htu.rows, hst.caches.trans htu.caches⟩

omit [Host] in
/-- A new entry does not hide one that is there. -/
theorem lookup_cons_of_lookup {key key' : Str} {found found' : Option ℕ}
    {l : List (Str × Option ℕ)} (hmiss : l.lookup key' = none) (h : l.lookup key = some found) :
    ((key', found') :: l).lookup key = some found := by
  have hne : key ≠ key' := by
    rintro rfl
    rw [hmiss] at h
    cases h
  rw [List.lookup_cons, beq_eq_false_iff_ne.mpr hne]
  exact h

def CachesGrown (s t : StoreState) : Prop := CachesGrow s.caches t.caches

def CachesSame (s t : StoreState) : Prop := t.caches = s.caches

/-- The caches of the store only grow. -/
abbrev Cached {α : Type} (m : StoreTx α) : Prop := Within CachesGrown m

theorem cached_bind {α β : Type} {m : StoreTx α} {f : α → StoreTx β} (hm : Cached m)
    (hf : ∀ a, Cached (f a)) : Cached (m >>= f) :=
  within_bind (R := CachesGrown) (fun _ _ _ h₁ h₂ => CachesGrow.trans h₁ h₂) hm hf

theorem cached_pure {α : Type} (a : α) : Cached (pure a : StoreTx α) :=
  within_pure (R := CachesGrown) (fun _ => CachesGrow.refl _) a

theorem cached_step {α : Type} {f : StoreState → Except StoreError α × StoreState}
    (h : ∀ s, (f s).2 = s) : Cached (step f) := by
  refine within_step (R := CachesGrown) fun s => ?_
  rw [h s]
  exact CachesGrow.refl _

/-- A statement changes the database only. -/
theorem change_caches (f : IndexDb → Except Thrown IndexDb) :
    Within CachesSame (change f) := by
  refine within_statement (R := CachesSame) (fun _ => rfl) fun s => ?_
  cases f s.db with
  | ok db => rfl
  | error e => rfl

theorem select_caches {α : Type} (f : IndexDb → α) :
    Within CachesSame (select f) :=
  within_statement (R := CachesSame) (fun _ => rfl) fun _ => rfl

theorem cached_of_same {α : Type} {m : StoreTx α}
    (h : Within CachesSame m) : Cached m := by
  intro s fs
  unfold CachesGrown
  rw [show (m s fs).store.caches = s.caches from h s fs]
  exact CachesGrow.refl _

theorem intern_caches (t : NameTable) (width : ℕ) (name : Str) :
    Within CachesSame (internTx t width name) :=
  within_bind (R := CachesSame) (fun _ _ _ h₁ h₂ => h₂.trans h₁) (change_caches _)
    fun _ => select_caches _

theorem lookupCamera_caches (reg : EquipmentRegistry) (raw : Str) :
    Within CachesSame (lookupCameraTx reg raw) :=
  lookupCameraTx_rule (fun found => within_pure (R := CachesSame) (fun _ => rfl) found)
    (intern_caches cameraTable) reg raw

theorem lookupFilter_caches (reg : EquipmentRegistry) (raw : Str) :
    Within CachesSame (lookupFilterTx reg raw) :=
  lookupFilterTx_rule (fun found => within_pure (R := CachesSame) (fun _ => rfl) found)
    (intern_caches filterTable) reg raw

/-- An entry is added under a key that has none. -/
theorem cached_cachedTx {cached : Caches → Option (Option ℕ)}
    {remember : Caches → Option ℕ → Caches} {look : StoreTx (Option ℕ)}
    (hlook : Within CachesSame look)
    (hgrow : ∀ c id, cached c = none → CachesGrow c (remember c id)) :
    Cached (cachedTx cached remember look) := by
  intro s fs
  unfold cachedTx
  rw [bind_of (step_apply s fs _)]
  cases hknown : cached s.caches with
  | some found => exact CachesGrow.refl _
  | none =>
    show CachesGrow s.caches ((look s fs).andThen _).store.caches
    have hsame : (look s fs).store.caches = s.caches := hlook s fs
    unfold Outcome.andThen
    cases (look s fs).result with
    | error e =>
      show CachesGrow s.caches (look s fs).store.caches
      rw [hsame]
      exact CachesGrow.refl _
    | ok id =>
      show CachesGrow s.caches (remember (look s fs).store.caches id)
      rw [hsame]
      exact hgrow _ _ hknown

theorem cached_resolveCamera (reg : EquipmentRegistry) (raw : Str) :
    Cached (resolveCameraTx reg raw) :=
  cached_cachedTx (lookupCamera_caches reg raw) fun _ _ hmiss =>
    ⟨fun _ _ h => lookup_cons_of_lookup hmiss h, fun _ _ h => h⟩

theorem cached_resolveFilter (reg : EquipmentRegistry) (raw : Str) :
    Cached (resolveFilterTx reg raw) := by
  unfold resolveFilterTx
  split
  · exact cached_pure _
  · exact cached_cachedTx (lookupFilter_caches reg raw) fun c id hmiss =>
      ⟨fun _ _ h => h, fun _ _ h => lookup_cons_of_lookup hmiss h⟩

theorem cached_lookupIf {look : Str → StoreTx (Option ℕ)} (h : ∀ raw, Cached (look raw))
    (raw : Option Str) : Cached (lookupIfTx look raw) := by
  cases raw with
  | none => exact cached_pure _
  | some r => exact h r

theorem cached_resolveEquipment (reg : EquipmentRegistry) (f : ResolvedFrame) :
    Cached (resolveEquipmentTx reg f) :=
  cached_bind (cached_lookupIf (cached_resolveCamera reg) _) fun _ =>
    cached_bind (cached_lookupIf (cached_resolveFilter reg) _) fun _ => cached_pure _

theorem cached_storeCards (cards : List Card) (frame : Option FrameRow) :
    Cached (storeCardsTx cards frame) := by
  cases frame with
  | none => exact cached_step fun _ => rfl
  | some frame =>
    refine cached_bind (cached_of_same (change_caches _)) fun _ => ?_
    split
    · exact cached_pure _
    · exact cached_of_same (change_caches _)

theorem cached_storeHdu (ctx : StoreContext) (fid : ℕ) (h : Hdu) : Cached (storeHduTx ctx fid h) :=
  cached_bind (cached_step fun _ => rfl) fun f =>
    cached_bind (cached_resolveEquipment ctx.registry f) fun _ =>
      cached_bind (cached_of_same (change_caches _)) fun _ =>
        cached_bind (cached_of_same (select_caches _)) fun _ => cached_storeCards _ _

theorem cached_storeHdus (ctx : StoreContext) (fid : ℕ) (hdus : List Hdu) :
    Cached (storeHdusTx ctx fid hdus) := by
  induction hdus with
  | nil => exact cached_pure _
  | cons h hs ih => exact cached_bind (cached_storeHdu ctx fid h) fun _ => ih

theorem cached_storeBody (ctx : StoreContext) (now : Micros) (info : FileInfo)
    (header : RawHeader) : Cached (storeBodyTx ctx now info header) := by
  refine cached_bind (cached_of_same (change_caches _)) fun _ =>
    cached_bind (cached_of_same (select_caches _)) fun row => ?_
  cases row with
  | none => exact cached_step fun _ => rfl
  | some row => exact cached_storeHdus ctx row.id _

variable {ctx : StoreContext} {clock : ℕ → Micros} {info : FileInfo} {header : RawHeader}
variable {s : StoreState} {fs : Schedule StoreError}

theorem storeFileOnce_error {now : Micros} {e : StoreError}
    (h : (storeFileOnce ctx now info header s fs).result = .error e) :
    StateKept s (storeFileOnce ctx now info header s fs).store :=
  transaction_error (Q := CachesGrown) (R := StateKept) (fun _ => CachesGrow.refl _)
    (fun _ _ _ h₁ h₂ => CachesGrow.trans h₁ h₂) (cached_storeBody ctx now info header)
    StateKept.refl (fun s t hgrow => ⟨rowsKept_rollback s.db t.db, hgrow⟩) h

theorem storeFileOnce_ok {now : Micros}
    (h : (storeFileOnce ctx now info header s fs).result = .ok ()) :
    storeFile ctx now info header s =
      (.ok (), (storeFileOnce ctx now info header s fs).store) := by
  have hquiet := transaction_ok (lawful_storeBody ctx now info header) h
  have hsame := storeBodyTx_quiet ctx now info header s
  rw [hquiet] at hsame
  unfold storeFile
  generalize storeBody ctx now info header s = r at hsame ⊢
  cases hsame
  rfl

/-- **Attempts that fail** leave every row. -/
theorem storeFileTx_error {e : StoreError}
    (h : (storeFileTx ctx clock info header s fs).result = .error e) :
    StateKept s (storeFileTx ctx clock info header s fs).store :=
  retry_error (R := StateKept) (fun _ _ _ => StateKept.trans) (fun _ _ _ _ => storeFileOnce_error) h

/-- **Attempts that return** do so with one store, on the rows there were. -/
theorem storeFileTx_ok (h : (storeFileTx ctx clock info header s fs).result = .ok ()) :
    ∃ k t, StateKept s t ∧ storeFile ctx (clock k) info header t =
      (.ok (), (storeFileTx ctx clock info header s fs).store) := by
  obtain ⟨k, t, gs, hkept, hres, hstore⟩ := retry_ok (R := StateKept) StateKept.refl
    (fun _ _ _ => StateKept.trans) (fun _ _ _ _ => storeFileOnce_error) h
  refine ⟨k, t, hkept, ?_⟩
  rw [storeFileOnce_ok hres, hstore]
  rfl

/-- Without errors there is one attempt. -/
theorem storeFileTx_quiet {t : StoreState}
    (h : storeFile ctx (clock 9) info header s = (.ok (), t)) :
    storeFileTx ctx clock info header s [] = ⟨.ok (), t, []⟩ := by
  have hbody : storeBodyTx ctx (clock 9) info header s [] = ⟨.ok (), t, []⟩ := by
    have hsame := storeBodyTx_quiet ctx (clock 9) info header s
    unfold storeFile at h
    generalize storeBody ctx (clock 9) info header s = r at hsame h
    generalize storeBodyTx ctx (clock 9) info header s [] = o at hsame
    cases hsame with
    | ok u =>
      cases h
      rfl
    | error e u u' => cases h
  exact retry_of_ok (transaction_quiet hbody) rfl

end Attempts

end StarBase
