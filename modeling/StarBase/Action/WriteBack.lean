import StarBase.Action

/-!
# The index after a file operation

A real move or trash changes the disk first and writes each move back into the index afterwards.

* `LiesUnder` — a path lies under a root by the components of their locations;
* `Accounted` — after the run every file's row agrees with where the file now is, every item that
  was moved is recorded, and the job is not left `running`;
* `LoopServed` — each item's statements are answered and the `UPDATE` of each moved file meets no
  other row under its new key;
* `accounted_iff` — **PROVED**: the run is accounted for exactly if it is served and every file ends
  plainly placed, so that the text of the roots' paths tells where it lies;
* `blocked_by_missing` — a `missing` row at the destination is enough to lose the write-back.

The directories that a run creates are not part of the tree: a location holds a file or a link.
-/

namespace StarBase.Action

open Relational Statements FileTree

/-! ### Paths under registered roots -/

/-- What is left of `path` below `root`. -/
def relUnder (root path : Str) : Str :=
  let newRel := path.drop root.length
  if newRel.head? = some '/' then newRel.tail else newRel

theorem underRoot_cases {root path : Str} (h : underRoot root path = true) :
    path = root ∨ path = root ++ '/' :: relUnder root path := by
  unfold underRoot at h
  simp only [Bool.and_eq_true, Bool.or_eq_true, decide_eq_true_eq, List.isPrefixOf_iff_prefix] at h
  obtain ⟨⟨_, rest, rfl⟩, hend⟩ := h
  cases rest with
  | nil => exact Or.inl (List.append_nil root)
  | cons c rest =>
    right
    have hc : c = '/' := by
      rcases hend with hlen | hnext
      · simp at hlen
      · simpa using hnext
    subst hc
    simp [relUnder]

theorem underRoot_self {path : Str} (h : path ≠ []) : underRoot path path = true := by
  simp [underRoot, h]

theorem rootFor_some {roots : List (ℕ × Str)} {path : Str} {r : ℕ × Str}
    (h : rootFor roots path = some r) : r ∈ roots ∧ underRoot r.2 path = true := by
  unfold rootFor at h
  have hunder := List.find?_some h
  exact ⟨(List.mem_insertionSort _).mp (List.mem_of_find?_eq_some h), hunder⟩

theorem rootFor_eq_none_iff {roots : List (ℕ × Str)} {path : Str} :
    rootFor roots path = none ↔ ∀ r ∈ roots, underRoot r.2 path = false := by
  unfold rootFor
  rw [List.find?_eq_none]
  constructor
  · intro h r hr
    simpa using h r ((List.mem_insertionSort _).mpr hr)
  · intro h r hr
    simpa using h r ((List.mem_insertionSort _).mp hr)

/-- The root found is the longest one over the path. -/
theorem rootFor_longest {roots : List (ℕ × Str)} {path : Str} {r s : ℕ × Str}
    (h : rootFor roots path = some r) (hs : s ∈ roots) (hu : underRoot s.2 path = true) :
    s.2.length ≤ r.2.length := by
  have hsorted := List.pairwise_insertionSort (fun a b : ℕ × Str => b.2.length ≤ a.2.length) roots
  unfold rootFor at h
  obtain ⟨_, before, after, heq, hbefore⟩ := List.find?_eq_some_iff_append.mp h
  have hmem : s ∈ before ++ r :: after := by
    rw [← heq]
    exact (List.mem_insertionSort _).mpr hs
  rw [heq] at hsorted
  rcases List.mem_append.mp hmem with hb | hc
  · have hno := hbefore s hb
    rw [hu] at hno
    cases hno
  · rcases List.mem_cons.mp hc with rfl | ha
    · exact le_refl _
    · exact (List.pairwise_cons.mp (List.pairwise_append.mp hsorted).2.1).1 s ha

/-- A path that is a registered root's own is anchored at that path. -/
theorem rootFor_own {roots : List (ℕ × Str)} {path : Str} {r s : ℕ × Str}
    (h : rootFor roots path = some r) (hne : path ≠ []) (hs : s ∈ roots) (he : s.2 = path) :
    r.2 = path := by
  have hu : underRoot s.2 path = true := by
    rw [he]
    exact underRoot_self hne
  have hlong := rootFor_longest h hs hu
  rcases underRoot_cases (rootFor_some h).2 with hr | hr
  · exact hr.symm
  · have hlen := congrArg List.length hr
    rw [he] at hlong
    simp only [List.length_append, List.length_cons] at hlen
    omega

/-- The components of an absolute path; doubled and trailing slashes give none. -/
def components (p : Str) : List Str := (p.splitOn '/').filter fun c => decide (c ≠ [])

section Location

variable (locate : Str → Str)

/-- The path lies at the root or below it: its location begins with the root's components. -/
def LiesUnder (root p : Str) : Prop := components (locate root) <+: components (locate p)

instance (root p : Str) : Decidable (LiesUnder locate root p) :=
  inferInstanceAs (Decidable (components (locate root) <+: components (locate p)))

theorem liesUnder_self (p : Str) : LiesUnder locate p p := List.prefix_refl _

/-- Some root's path and a slash begin the path, or the path lies under no root, however the two are
spelled.  In between are the root `/`, a root that ends in a slash, a doubled slash, a linked
directory. -/
def PlainlyPlaced (roots : List (ℕ × Str)) (p : Str) : Prop :=
  (∀ r ∈ roots, r.2 ≠ p) ∧
    ((∃ r ∈ roots, underRoot r.2 p = true) ∨ ∀ r ∈ roots, ¬ LiesUnder locate r.2 p)

instance (roots : List (ℕ × Str)) (p : Str) : Decidable (PlainlyPlaced locate roots p) :=
  inferInstanceAs (Decidable (_ ∧ _))

example : ¬ PlainlyPlaced id [(1, "/r".toList)] "//r/b".toList := by decide

/-! ### Rows that agree with the disk -/

/-- The row's path, root and all, is `p`. -/
def RowAt (roots : List (ℕ × Str)) (q : FileRow) (p : Str) : Prop :=
  ∃ r ∈ roots, r.1 = q.rootId ∧ p = r.2 ++ '/' :: q.relPath

/-- The row says that the file is at `p`: by its path, or by its status when `p` lies under no
registered root. -/
def Agrees (roots : List (ℕ × Str)) (q : FileRow) (p : Str) : Prop :=
  (q.status ≠ .missing ∧ RowAt roots q p) ∨
    (q.status = .missing ∧ ∀ r ∈ roots, ¬ LiesUnder locate r.2 p)

/-- The row as the write-back of a move to `dst` leaves it. -/
def WrittenTo (roots : List (ℕ × Str)) (q : FileRow) (dst : Str) : Prop :=
  match rootFor roots dst with
  | some r => q.rootId = r.1 ∧ q.relPath = relUnder r.2 dst ∧ q.status = .ok
  | none => q.status = .missing

variable {locate}

/-- **A written row agrees with the disk exactly if the file is plainly placed.** -/
theorem WrittenTo.agrees_iff {roots : List (ℕ × Str)} (hn : (roots.map Prod.fst).Nodup)
    {q : FileRow} {dst : Str} (hd : dst ≠ []) (h : WrittenTo roots q dst) :
    Agrees locate roots q dst ↔ PlainlyPlaced locate roots dst := by
  unfold WrittenTo at h
  cases hr : rootFor roots dst with
  | none =>
    rw [hr] at h
    have hout := rootFor_eq_none_iff.mp hr
    constructor
    · intro ha
      rcases ha with ⟨hst, _⟩ | ⟨_, houtside⟩
      · exact absurd h hst
      · refine ⟨fun r hmem he => houtside r hmem ?_, Or.inr houtside⟩
        rw [he]
        exact liesUnder_self locate dst
    · intro hp
      refine Or.inr ⟨h, hp.2.resolve_left fun hin => ?_⟩
      obtain ⟨r, hmem, hunder⟩ := hin
      rw [hout r hmem] at hunder
      cases hunder
  | some r =>
    rw [hr] at h
    obtain ⟨hid, hrel, hst⟩ := h
    obtain ⟨hmem, hunder⟩ := rootFor_some hr
    constructor
    · intro ha
      refine ⟨fun s hs he => ?_, Or.inl ⟨r, hmem, hunder⟩⟩
      have hown : r.2 = dst := rootFor_own hr hd hs he
      rcases ha with ⟨_, r', hr', hid', hp⟩ | ⟨hmiss, _⟩
      · have hsame : r' = r := List.inj_on_of_nodup_map hn hr' hmem (hid'.trans hid)
        have hlen := congrArg List.length hp
        rw [hsame, hown] at hlen
        simp at hlen
      · rw [hst] at hmiss
        cases hmiss
    · intro hp
      refine Or.inl ⟨by simp [hst], r, hmem, hid.symm, ?_⟩
      rw [hrel]
      exact (underRoot_cases hunder).resolve_left fun he => hp.1 r hmem he.symm

end Location

/-! ### The items and their records -/

/-- Where an item's file goes. -/
def itemDst (base : Str) (f : FrameRef) : Str := joinPath base (safeName f.filename)

theorem itemDst_ne_nil (base : Str) (f : FrameRef) : itemDst base f ≠ [] := by
  have hname : safeName f.filename ≠ [] := by
    unfold safeName
    dsimp only
    split
    · simp
    · next h => exact fun he => h (Or.inr (Or.inr he))
  unfold itemDst joinPath
  split
  · exact hname
  · split <;> simp [hname]

/-- The record of an item whose file was moved. -/
def okItem (op : FsOp) (base : Str) (f : FrameRef) : ItemResult :=
  ⟨f.frameId, op.text, f.absPath, itemDst base f, "ok".toList, []⟩

def failedItem (op : FsOp) (base : Str) (f : FrameRef) (msg : Str) : ItemResult :=
  ⟨f.frameId, op.text, f.absPath, itemDst base f, "failed".toList, msg⟩

theorem recordItem_eq_ok_iff {jobId : ℕ} {it : ItemResult} {w v : World} {rs rs' : List Reply} {u : Unit} :
    recordItem jobId it w rs = ⟨.ok u, v, rs'⟩ ↔
      Healthy 1 rs ∧ rs' = rs.tail ∧ v = { w with jobItems := w.jobItems ++ [(jobId, it)] } := by
  unfold recordItem
  rw [exec_eq_ok_iff, healthy_one_iff, Except.ok.injEq]
  constructor
  · intro h
    exact ⟨h.1, h.2.2.symm, h.2.1.symm⟩
  · intro h
    exact ⟨h.1, h.2.2.symm, h.2.1.symm⟩

/-- The file with id `i` after the moves of `fs`, from `p`: where the last of them took it. -/
def position (base : Str) (i : ℕ) (p : Str) (fs : List FrameRef) : Str :=
  fs.foldl (fun p f => if f.fileId = i then itemDst base f else p) p

theorem position_of_unmoved (base : Str) {i : ℕ} (p : Str) {fs : List FrameRef}
    (h : ∀ f ∈ fs, f.fileId ≠ i) : position base i p fs = p := by
  induction fs generalizing p with
  | nil => rfl
  | cons f fs ih =>
    show position base i (if f.fileId = i then itemDst base f else p) fs = p
    rw [if_neg (h f (by simp))]
    exact ih p fun g hg => h g (List.mem_cons_of_mem _ hg)

/-- Where a moved file ends does not depend on where it was. -/
theorem position_of_moved (base : Str) {i : ℕ} (p p' : Str) {fs : List FrameRef}
    (h : ∃ f ∈ fs, f.fileId = i) : position base i p fs = position base i p' fs := by
  induction fs generalizing p p' with
  | nil =>
    obtain ⟨f, hf, _⟩ := h
    cases hf
  | cons f fs ih =>
    show position base i (if f.fileId = i then itemDst base f else p) fs
      = position base i (if f.fileId = i then itemDst base f else p') fs
    by_cases hfi : f.fileId = i
    · rw [if_pos hfi, if_pos hfi]
    · obtain ⟨g, hg, hgi⟩ := h
      rcases List.mem_cons.mp hg with rfl | hg
      · exact absurd hgi hfi
      · exact ih _ _ ⟨g, hg, hgi⟩

theorem position_ne_nil (base : Str) {i : ℕ} {p : Str} (hp : p ≠ []) (fs : List FrameRef) :
    position base i p fs ≠ [] := by
  induction fs generalizing p with
  | nil => exact hp
  | cons f fs ih =>
    show position base i (if f.fileId = i then itemDst base f else p) fs ≠ []
    split
    · exact ih (itemDst_ne_nil base f)
    · exact ih hp

section Server

variable [Host]

/-! ### The write-back of one move -/

/-- The columns the `UPDATE` of a re-anchored file sets. -/
def anchored (now : Micros) (rootId : ℕ) (newRel : Str) (r : FileRow) : FileRow :=
  { r with
    rootId := rootId
    relPath := newRel
    relPathHash := Host.md5 newRel
    status := .ok
    lastSeenUtc := some (wholeSecond now * 1000000) }

/-- The `files` table after the write-back of a move to `dst`; `none` when the row is refused. -/
def writtenFiles (now : Micros) (roots : List (ℕ × Str)) (T : Table fileKeying) (fileId : ℕ)
    (dst : Str) : Option (Table fileKeying) :=
  match rootFor roots dst with
  | some r => T.rekey fileId (anchored now r.1 (relUnder r.2 dst)) fun _ => rfl
  | none => some (T.modify (fun q => q.id = fileId) missingRow)

/-- No other row of the destination's root, whatever its status, holds the path moved to. -/
def PathFree (roots : List (ℕ × Str)) (T : Table fileKeying) (fileId : ℕ) (dst : Str) : Prop :=
  ∀ r ∈ rootFor roots dst, ∀ q ∈ T.rows, q.id ≠ fileId →
    (q.rootId, q.relPathHash) ≠ (r.1, Host.md5 (relUnder r.2 dst))

instance (roots : List (ℕ × Str)) (T : Table fileKeying) (fileId : ℕ) (dst : Str) :
    Decidable (PathFree roots T fileId dst) :=
  inferInstanceAs (Decidable (∀ r ∈ rootFor roots dst, ∀ q ∈ T.rows, q.id ≠ fileId →
    (q.rootId, q.relPathHash) ≠ (r.1, Host.md5 (relUnder r.2 dst))))

variable {now : Micros} {roots : List (ℕ × Str)} {T U : Table fileKeying} {fileId : ℕ} {dst : Str}

theorem writtenFiles_isSome_iff (now : Micros) (hid : fileId ∈ T.ids) :
    (writtenFiles now roots T fileId dst).isSome ↔ PathFree roots T fileId dst := by
  obtain ⟨q, hq, hqi⟩ := Table.mem_ids.mp hid
  unfold writtenFiles PathFree
  cases rootFor roots dst with
  | none => simp
  | some r =>
    simp only [Option.mem_def, Option.some.injEq, forall_eq']
    exact Table.rekey_isSome_iff hq hqi

theorem ids_writtenFiles (h : writtenFiles now roots T fileId dst = some U) : U.ids = T.ids := by
  unfold writtenFiles at h
  split at h
  · exact Table.ids_rekey h
  · cases h
    exact Table.ids_modify

/-- The moved file's row is written to `dst`. -/
theorem writtenFiles_self (h : writtenFiles now roots T fileId dst = some U)
    (hid : fileId ∈ T.ids) : ∃ q ∈ U.rows, q.id = fileId ∧ WrittenTo roots q dst := by
  obtain ⟨q, hq, hqi⟩ := Table.mem_ids.mp hid
  unfold writtenFiles at h
  unfold WrittenTo
  cases hr : rootFor roots dst with
  | none =>
    rw [hr] at h
    cases h
    refine ⟨missingRow.apply q, ?_, hqi, rfl⟩
    rw [Table.modify_rows]
    exact List.mem_map.mpr ⟨q, hq, if_pos (decide_eq_true hqi)⟩
  | some r =>
    rw [hr] at h
    refine ⟨anchored now r.1 (relUnder r.2 dst) q, ?_, hqi, rfl, rfl, rfl⟩
    rw [(Table.rekey_eq_some_iff.mp h).1]
    exact List.mem_map.mpr ⟨q, hq, if_pos hqi⟩

/-- The rows of other files stay. -/
theorem writtenFiles_other (h : writtenFiles now roots T fileId dst = some U) {q : FileRow}
    (hq : q ∈ T.rows) (hne : q.id ≠ fileId) : q ∈ U.rows := by
  unfold writtenFiles at h
  split at h
  · rw [(Table.rekey_eq_some_iff.mp h).1]
    exact List.mem_map.mpr ⟨q, hq, if_neg hne⟩
  · cases h
    rw [Table.modify_rows]
    exact List.mem_map.mpr ⟨q, hq, if_neg (by simpa using hne)⟩

/-- The write-back returns exactly if its two statements are answered and the row is accepted. -/
theorem writeBack_eq_ok_iff {w v : World} {rs rs' : List Reply} {u : Unit} :
    writeBack now fileId dst w rs = ⟨.ok u, v, rs'⟩ ↔
      Healthy 2 rs ∧ rs' = rs.drop 2 ∧
        ∃ U, writtenFiles now w.roots w.files fileId dst = some U ∧ v = { w with files := U } := by
  have hdrop : rs.drop 2 = rs.tail.tail := by
    cases rs <;> simp
  unfold writeBack writtenFiles
  rw [bind_eq_ok_iff, healthy_succ_iff, healthy_one_iff, hdrop]
  constructor
  · intro h
    obtain ⟨root, w', rs₁, hquery, hrest⟩ := h
    obtain ⟨hr₁, rfl, rfl, rfl⟩ := query_eq_ok_iff.mp hquery
    cases hr : rootFor w.roots dst with
    | none =>
      rw [hr] at hrest
      obtain ⟨hr₂, hv, rfl⟩ := exec_eq_ok_iff.mp hrest
      cases hv
      exact ⟨⟨hr₁, hr₂⟩, rfl, _, rfl, rfl⟩
    | some r =>
      rw [hr] at hrest
      obtain ⟨hr₂, hv, rfl⟩ := exec_eq_ok_iff.mp hrest
      refine ⟨⟨hr₁, hr₂⟩, rfl, ?_⟩
      split at hv
      · next U hU =>
        cases hv
        exact ⟨U, hU, rfl⟩
      · cases hv
  · intro h
    obtain ⟨⟨hr₁, hr₂⟩, rfl, U, hU, rfl⟩ := h
    refine ⟨_, w, rs.tail, query_eq_ok_iff.mpr ⟨hr₁, rfl, rfl, rfl⟩, ?_⟩
    cases hr : rootFor w.roots dst with
    | none =>
      rw [hr] at hU
      cases hU
      exact exec_eq_ok_iff.mpr ⟨hr₂, rfl, rfl⟩
    | some r =>
      rw [hr] at hU
      refine exec_eq_ok_iff.mpr ⟨hr₂, ?_, rfl⟩
      split
      · next U' hU' => rw [Option.some.inj (hU'.symm.trans hU)]
      · next hno => exact absurd (hno.symm.trans hU) (by simp)

/-! ### One item -/

section Items

variable (locate : Str → Str) (now : Micros) (op : FsOp) (base : Str) (jobId : ℕ)

/-- An item whose system calls fail returns exactly if its record is written. -/
theorem fsopItem_of_failed {f : FrameRef} {x : SysFaults} {w : World} {t : Files} {msg : Str}
    (hp : perform locate op x w.tree f.absPath (itemDst base f) = (.error msg, t))
    {it : ItemResult} {v : World} {rs rs' : List Reply} :
    fsopItem locate now op base jobId f x w rs = ⟨.ok it, v, rs'⟩ ↔
      Healthy 1 rs ∧ rs' = rs.tail ∧ it = failedItem op base f msg ∧
        v = { w with tree := t, jobItems := w.jobItems ++ [(jobId, it)] } := by
  have hrun : fsopItem locate now op base jobId f x w rs
      = (recordItem jobId (failedItem op base f msg) >>= fun _ => pure (failedItem op base f msg))
        { w with tree := t } rs := by
    unfold fsopItem
    rw [bind_apply, modifyGet_apply, andThen_ok]
    dsimp only
    rw [show perform locate op x w.tree f.absPath (joinPath base (safeName f.filename))
      = (.error msg, t) from hp]
    rfl
  rw [hrun, bind_eq_ok_iff]
  constructor
  · intro h
    obtain ⟨_, _, _, hrec, hpure⟩ := h
    obtain ⟨hr, rfl, rfl⟩ := recordItem_eq_ok_iff.mp hrec
    obtain ⟨rfl, rfl, rfl⟩ := pure_eq_ok_iff.mp hpure
    exact ⟨hr, rfl, rfl, rfl⟩
  · intro h
    obtain ⟨hr, rfl, rfl, rfl⟩ := h
    exact ⟨(), _, _, recordItem_eq_ok_iff.mpr ⟨hr, rfl, rfl⟩, pure_eq_ok_iff.mpr ⟨rfl, rfl, rfl⟩⟩

variable {op}

/-- An item whose file was moved returns exactly if its three statements are answered and its row
is accepted. -/
theorem fsopItem_of_moved (hop : op.destructive = true) {f : FrameRef} {x : SysFaults} {w : World}
    {t : Files} (hp : perform locate op x w.tree f.absPath (itemDst base f) = (.ok (), t))
    {it : ItemResult} {v : World} {rs rs' : List Reply} :
    fsopItem locate now op base jobId f x w rs = ⟨.ok it, v, rs'⟩ ↔
      Healthy 3 rs ∧ rs' = rs.drop 3 ∧ it = okItem op base f ∧
        ∃ U, writtenFiles now w.roots w.files f.fileId (itemDst base f) = some U ∧
          v = { w with tree := t, files := U, jobItems := w.jobItems ++ [(jobId, it)] } := by
  have hrun : fsopItem locate now op base jobId f x w rs
      = (writeBack now f.fileId (itemDst base f) >>= fun _ =>
          recordItem jobId (okItem op base f) >>= fun _ => pure (okItem op base f))
        { w with tree := t } rs := by
    unfold fsopItem
    rw [bind_apply, modifyGet_apply, andThen_ok]
    dsimp only
    rw [show perform locate op x w.tree f.absPath (joinPath base (safeName f.filename))
      = (.ok (), t) from hp, hop]
    rfl
  rw [hrun, bind_eq_ok_iff, healthy_add_iff 2 1]
  constructor
  · intro h
    obtain ⟨_, _, _, hwrite, hrest⟩ := h
    obtain ⟨hr, rfl, U, hU, rfl⟩ := writeBack_eq_ok_iff.mp hwrite
    obtain ⟨_, _, _, hrec, hpure⟩ := bind_eq_ok_iff.mp hrest
    obtain ⟨hr', rfl, rfl⟩ := recordItem_eq_ok_iff.mp hrec
    obtain ⟨rfl, rfl, rfl⟩ := pure_eq_ok_iff.mp hpure
    exact ⟨⟨hr, hr'⟩, List.tail_drop, rfl, U, hU, rfl⟩
  · intro h
    obtain ⟨⟨hr, hr'⟩, rfl, rfl, U, hU, rfl⟩ := h
    refine ⟨(), _, _, writeBack_eq_ok_iff.mpr ⟨hr, rfl, U, hU, rfl⟩, bind_eq_ok_iff.mpr ?_⟩
    exact ⟨(), _, _, recordItem_eq_ok_iff.mpr ⟨hr', List.tail_drop.symm, rfl⟩,
      pure_eq_ok_iff.mpr ⟨rfl, rfl, rfl⟩⟩

end Items

/-! ### The loop -/

section Loop

variable (locate : Str → Str) (now : Micros) (op : FsOp) (base : Str) (jobId : ℕ)

/-- The items the run begins: an exception ends it. -/
def begun : List (FrameRef × SysFaults) → World → List Reply → List (FrameRef × SysFaults)
  | [], _, _ => []
  | (f, x) :: rest, w, rs =>
    (f, x) ::
      match fsopItem locate now op base jobId f x w rs with
      | ⟨.ok _, v, rs'⟩ => begun rest v rs'
      | ⟨.error _, _, _⟩ => []

/-- The frames whose files the system calls move. -/
def moved : List (FrameRef × SysFaults) → Files → List FrameRef
  | [], _ => []
  | (f, x) :: rest, t =>
    match perform locate op x t f.absPath (itemDst base f) with
    | (.ok _, u) => f :: moved rest u
    | (.error _, u) => moved rest u

/-- Every statement of the loop is answered, the `UPDATE` of each moved file meets no other row
under its new key, and the closing statement reaches the server. -/
def LoopServed (roots : List (ℕ × Str)) :
    List (FrameRef × SysFaults) → Files → Table fileKeying → List Reply → Prop
  | [], _, _, rs => (nextReply rs).1 ≠ .failed
  | (f, x) :: rest, t, T, rs =>
    match perform locate op x t f.absPath (itemDst base f) with
    | (.error _, u) => Healthy 1 rs ∧ LoopServed roots rest u T rs.tail
    | (.ok _, u) =>
      Healthy 3 rs ∧ PathFree roots T f.fileId (itemDst base f) ∧
        LoopServed roots rest u ((writtenFiles now roots T f.fileId (itemDst base f)).getD T)
          (rs.drop 3)

/-- What the items that moved the files of `fs` leave in the database. -/
structure Filed (fs : List FrameRef) (w v : World) : Prop where
  roots : v.roots = w.roots
  recorded : ∃ items, v.jobItems = w.jobItems ++ items ∧
    (fs.map fun f => (jobId, okItem op base f)).Sublist items
  written : ∀ f ∈ fs, f.fileId ∈ w.files.ids → ∀ p, ∃ q ∈ v.files.rows, q.id = f.fileId ∧
    WrittenTo w.roots q (position base f.fileId p fs)
  kept : ∀ q ∈ w.files.rows, (∀ f ∈ fs, f.fileId ≠ q.id) → q ∈ v.files.rows

variable {op base jobId}

omit [Host] in
theorem filed_refl (w : World) : Filed op base jobId [] w w where
  roots := rfl
  recorded := ⟨[], by simp, List.Sublist.refl _⟩
  written f hf := by cases hf
  kept q hq _ := hq

omit [Host] in
/-- An item that moves nothing only adds to the record. -/
theorem Filed.of_failed {fs : List FrameRef} {w v : World} {t : Files} {it : ItemResult}
    (h : Filed op base jobId fs
      { w with tree := t, jobItems := w.jobItems ++ [(jobId, it)] } v) :
    Filed op base jobId fs w v where
  roots := h.roots
  recorded := by
    obtain ⟨items, heq, hsub⟩ := h.recorded
    exact ⟨(jobId, it) :: items, by simpa using heq, hsub.cons _⟩
  written := h.written
  kept := h.kept

theorem Filed.of_moved {f : FrameRef} {fs : List FrameRef} {w v : World} {t : Files}
    {U : Table fileKeying}
    (hU : writtenFiles now w.roots w.files f.fileId (itemDst base f) = some U)
    (h : Filed op base jobId fs
      { w with
        tree := t
        files := U
        jobItems := w.jobItems ++ [(jobId, okItem op base f)] } v) :
    Filed op base jobId (f :: fs) w v where
  roots := h.roots
  recorded := by
    obtain ⟨items, heq, hsub⟩ := h.recorded
    exact ⟨(jobId, okItem op base f) :: items, by simpa using heq, hsub.cons_cons _⟩
  written g hg hid p := by
    show ∃ q ∈ v.files.rows, q.id = g.fileId ∧ WrittenTo w.roots q
      (position base g.fileId (if f.fileId = g.fileId then itemDst base f else p) fs)
    by_cases hlater : ∃ k ∈ fs, k.fileId = g.fileId
    · obtain ⟨k, hk, hkg⟩ := hlater
      have hkid : k.fileId ∈ U.ids := by
        rw [ids_writtenFiles hU, hkg]
        exact hid
      obtain ⟨q, hq, hqi, hw⟩ := h.written k hk hkid
        (if f.fileId = g.fileId then itemDst base f else p)
      rw [hkg] at hqi hw
      exact ⟨q, hq, hqi, hw⟩
    · -- the last move of the file is this item's, and its row stays as this item wrote it
      have hno : ∀ k ∈ fs, k.fileId ≠ g.fileId := fun k hk he => hlater ⟨k, hk, he⟩
      have hfg : f.fileId = g.fileId := by
        rcases List.mem_cons.mp hg with rfl | hg
        · rfl
        · exact absurd rfl (hno g hg)
      rw [position_of_unmoved base _ hno, if_pos hfg, ← hfg]
      obtain ⟨q, hq, hqi, hw⟩ := writtenFiles_self hU (hfg ▸ hid)
      exact ⟨q, h.kept q hq fun k hk he => hno k hk (he.trans (hqi.trans hfg)), hqi, hw⟩
  kept q hq hno :=
    h.kept q (writtenFiles_other hU hq fun he => hno f (by simp) he.symm)
      fun k hk => hno k (List.mem_cons_of_mem _ hk)

variable (jobId)

/-- A loop that returns has begun every item and filed every move. -/
theorem fsopLoop_filed (hop : op.destructive = true) (frames : List (FrameRef × SysFaults))
    {jr jr' : JobResult} {w v : World} {rs rs' : List Reply}
    (h : fsopLoop locate now op base jobId frames jr w rs = ⟨.ok jr', v, rs'⟩) :
    begun locate now op base jobId frames w rs = frames ∧
      Filed op base jobId (moved locate op base frames w.tree) w v := by
  induction frames generalizing jr w rs with
  | nil =>
    obtain ⟨-, rfl, -⟩ := pure_eq_ok_iff.mp h
    exact ⟨rfl, filed_refl w⟩
  | cons fx rest ih =>
    obtain ⟨f, x⟩ := fx
    obtain ⟨it, w', rs₁, hitem, hrest⟩ := bind_eq_ok_iff.mp h
    obtain ⟨hbegun, hfiled⟩ := ih hrest
    refine ⟨?_, ?_⟩
    · unfold begun
      rw [hitem]
      exact congrArg _ hbegun
    · unfold moved
      rcases hp : perform locate op x w.tree f.absPath (itemDst base f) with ⟨msg | _, t⟩
      · obtain ⟨-, -, -, rfl⟩ := (fsopItem_of_failed locate now op base jobId hp).mp hitem
        exact hfiled.of_failed
      · obtain ⟨-, -, rfl, U, hU, rfl⟩ :=
          (fsopItem_of_moved locate now base jobId hop hp).mp hitem
        exact Filed.of_moved now hU hfiled

/-- The loop returns, and the closing statement is carried out. -/
def Closes (locate : Str → Str) (now : Micros) (op : FsOp) (base : Str) (jobId : ℕ)
    (frames : List (FrameRef × SysFaults)) (jr : JobResult) (w : World) (rs : List Reply) : Prop :=
  ∃ jr' v rs', fsopLoop locate now op base jobId frames jr w rs = ⟨.ok jr', v, rs'⟩ ∧
    (nextReply rs').1 ≠ .failed

theorem closes_nil_iff {jr : JobResult} {w : World} {rs : List Reply} :
    Closes locate now op base jobId [] jr w rs ↔ (nextReply rs).1 ≠ .failed := by
  constructor
  · intro h
    obtain ⟨jr', v, rs', hrun, hr⟩ := h
    obtain ⟨-, -, rfl⟩ := pure_eq_ok_iff.mp hrun
    exact hr
  · intro h
    exact ⟨jr, w, rs, rfl, h⟩

theorem closes_cons_iff {f : FrameRef} {x : SysFaults} {rest : List (FrameRef × SysFaults)}
    {jr : JobResult} {w : World} {rs : List Reply} :
    Closes locate now op base jobId ((f, x) :: rest) jr w rs ↔
      ∃ it v rs', fsopItem locate now op base jobId f x w rs = ⟨.ok it, v, rs'⟩ ∧
        Closes locate now op base jobId rest (jr.add it) v rs' := by
  constructor
  · intro h
    obtain ⟨jr', u, rs'', hrun, hr⟩ := h
    obtain ⟨it, v, rs', hitem, hloop⟩ := bind_eq_ok_iff.mp hrun
    exact ⟨it, v, rs', hitem, jr', u, rs'', hloop, hr⟩
  · intro h
    obtain ⟨it, v, rs', hitem, jr', u, rs'', hloop, hr⟩ := h
    exact ⟨jr', u, rs'', bind_eq_ok_iff.mpr ⟨it, v, rs', hitem, hloop⟩, hr⟩

/-- The loop closes exactly if it is served. -/
theorem loopServed_iff (hop : op.destructive = true) (frames : List (FrameRef × SysFaults))
    (jr : JobResult) (w : World) (rs : List Reply)
    (hids : ∀ fx ∈ frames, fx.1.fileId ∈ w.files.ids) :
    LoopServed locate now op base w.roots frames w.tree w.files rs ↔
      Closes locate now op base jobId frames jr w rs := by
  induction frames generalizing jr w rs with
  | nil => exact (closes_nil_iff locate now jobId).symm
  | cons fx rest ih =>
    obtain ⟨f, x⟩ := fx
    have hfid : f.fileId ∈ w.files.ids := hids (f, x) (by simp)
    have hrest : ∀ gy ∈ rest, gy.1.fileId ∈ w.files.ids :=
      fun gy hgy => hids gy (List.mem_cons_of_mem _ hgy)
    rw [closes_cons_iff]
    unfold LoopServed
    rcases hp : perform locate op x w.tree f.absPath (itemDst base f) with ⟨msg | _, t⟩
    · let w' : World :=
        { w with tree := t, jobItems := w.jobItems ++ [(jobId, failedItem op base f msg)] }
      have hitem : ∀ it v rs', fsopItem locate now op base jobId f x w rs = ⟨.ok it, v, rs'⟩ ↔ _ :=
        fun it v rs' => fsopItem_of_failed locate now op base jobId hp
      constructor
      · intro h
        exact ⟨_, w', _, (hitem _ _ _).mpr ⟨h.1, rfl, rfl, rfl⟩, (ih _ w' _ hrest).mp h.2⟩
      · intro h
        obtain ⟨it, v, rs', hdone, hloop⟩ := h
        obtain ⟨hr, rfl, rfl, rfl⟩ := (hitem _ _ _).mp hdone
        exact ⟨hr, (ih _ w' _ hrest).mpr hloop⟩
    · have hitem : ∀ it v rs', fsopItem locate now op base jobId f x w rs = ⟨.ok it, v, rs'⟩ ↔ _ :=
        fun it v rs' => fsopItem_of_moved locate now base jobId hop hp
      let w' (U : Table fileKeying) : World :=
        { w with
          tree := t
          files := U
          jobItems := w.jobItems ++ [(jobId, okItem op base f)] }
      have hnext : ∀ U, writtenFiles now w.roots w.files f.fileId (itemDst base f) = some U →
          ∀ gy ∈ rest, gy.1.fileId ∈ (w' U).files.ids := by
        intro U hU gy hgy
        rw [ids_writtenFiles hU]
        exact hrest gy hgy
      constructor
      · intro h
        obtain ⟨hr, hfree, hloop⟩ := h
        obtain ⟨U, hU⟩ := Option.isSome_iff_exists.mp ((writtenFiles_isSome_iff now hfid).mpr hfree)
        rw [hU] at hloop
        exact ⟨_, w' U, _, (hitem _ _ _).mpr ⟨hr, rfl, rfl, U, hU, rfl⟩,
          (ih _ (w' U) _ (hnext U hU)).mp hloop⟩
      · intro h
        obtain ⟨it, v, rs', hdone, hloop⟩ := h
        obtain ⟨hr, rfl, rfl, U, hU, rfl⟩ := (hitem _ _ _).mp hdone
        refine ⟨hr, (writtenFiles_isSome_iff now hfid).mp (Option.isSome_iff_exists.mpr ⟨U, hU⟩), ?_⟩
        rw [hU]
        exact (ih _ (w' U) _ (hnext U hU)).mpr hloop

/-- The jobs are the same. -/
def SameJobs (w v : World) : Prop := v.jobs = w.jobs

omit [Host] in
theorem sameJobs_refl (w : World) : SameJobs w w := rfl

omit [Host] in
theorem sameJobs_trans (u v w : World) (h : SameJobs u v) (h' : SameJobs v w) : SameJobs u w :=
  h'.trans h

omit [Host] in
theorem recordItem_sameJobs (it : ItemResult) : Within SameJobs (recordItem jobId it) :=
  within_exec sameJobs_refl fun _ _ h => by cases h; rfl

theorem writeBack_sameJobs (fileId : ℕ) (dst : Str) :
    Within SameJobs (writeBack now fileId dst) := by
  refine within_bind sameJobs_trans (within_query sameJobs_refl _) fun root => ?_
  cases root with
  | none => exact within_exec sameJobs_refl fun _ _ h => by cases h; rfl
  | some r =>
    refine within_exec sameJobs_refl fun v u h => ?_
    split at h
    · cases h
      rfl
    · cases h

theorem fsopItem_sameJobs (op : FsOp) (f : FrameRef) (x : SysFaults) :
    Within SameJobs (fsopItem locate now op base jobId f x) := by
  refine within_bind sameJobs_trans (fun _ _ => rfl) fun out => ?_
  cases out with
  | error msg =>
    exact within_bind sameJobs_trans (recordItem_sameJobs jobId _)
      fun _ => within_pure sameJobs_refl _
  | ok _ =>
    refine within_bind sameJobs_trans ?_ fun _ => within_bind sameJobs_trans
      (recordItem_sameJobs jobId _) fun _ => within_pure sameJobs_refl _
    cases op.destructive with
    | true => exact writeBack_sameJobs now f.fileId _
    | false => exact within_pure sameJobs_refl _

theorem fsopLoop_sameJobs (op : FsOp) (frames : List (FrameRef × SysFaults)) (jr : JobResult) :
    Within SameJobs (fsopLoop locate now op base jobId frames jr) := by
  induction frames generalizing jr with
  | nil => exact within_pure sameJobs_refl _
  | cons fx rest ih =>
    exact within_bind sameJobs_trans (fsopItem_sameJobs locate now jobId op fx.1 fx.2)
      fun it => ih (jr.add it)

end Loop

/-! ### The run -/

section FsopRun

variable (locate : Str → Str) (cfg : ActionConfig) (now : Micros) (op : FsOp)

/-- The items a real run begins. -/
def fsopBegun (frames : List (FrameRef × SysFaults)) (targetDir : Str) (w : World)
    (rs : List Reply) : List (FrameRef × SysFaults) :=
  match createJob "fsop".toList false frames.length w rs with
  | ⟨.ok jobId, v, rs'⟩ =>
    begun locate now op (destBase cfg op targetDir jobId) jobId frames v rs'
  | ⟨.error _, _, _⟩ => []

/-- The index before the run: ids are primary keys, and the rows of the frames agree with the
disk. -/
structure Indexed (w : World) (frames : List FrameRef) : Prop where
  rootIds : (w.roots.map Prod.fst).Nodup
  jobIds : ∀ j ∈ w.jobs, j.id < w.nextJob
  rows : ∀ f ∈ frames, ∃ q ∈ w.files.rows, q.id = f.fileId ∧ Agrees locate w.roots q f.absPath

/-- The index `v` after a run over `frames` that moved the files of `fs`. -/
structure Accounted (base : Str) (jobId : ℕ) (frames fs : List FrameRef) (v : World) : Prop where
  rows : ∀ f ∈ frames, ∃ q ∈ v.files.rows, q.id = f.fileId ∧
    Agrees locate v.roots q (position base f.fileId f.absPath fs)
  recorded : (fs.map fun f => (jobId, okItem op base f)).Sublist v.jobItems
  finished : ∀ j ∈ v.jobs, j.id = jobId → j.status ≠ "running".toList

/-- The `INSERT` of the job is refused; or it is answered, the loop is served, and every file ends
plainly placed. -/
def FsopServed (frames : List (FrameRef × SysFaults)) (targetDir : Str) (w : World)
    (rs : List Reply) : Prop :=
  match (nextReply rs).1 with
  | .failed => True
  | .lost => False
  | .ok =>
    let base := destBase cfg op targetDir w.nextJob
    let fs := moved locate op base frames w.tree
    LoopServed locate now op base w.roots frames w.tree w.files rs.tail ∧
      ∀ f ∈ fs, PlainlyPlaced locate w.roots (position base f.fileId f.absPath fs)

/-- The world with the job inserted. -/
def started (n : ℕ) (w : World) : World :=
  { w with
    nextJob := w.nextJob + 1
    jobs := w.jobs ++ [⟨w.nextJob, "fsop".toList, "running".toList, false, n, 0, 0⟩] }

/-- The world with the job closed. -/
def closed (jobId : ℕ) (jr : JobResult) (w : World) : World :=
  { w with
    jobs := w.jobs.map fun j =>
      if j.id = jobId then
        { j with
          status := if jr.failed = 0 then "done".toList else "failed".toList
          doneItems := jr.done
          failedItems := jr.failed }
      else j }

omit [Host] in
theorem createJob_of_ok {n : ℕ} {w : World} {rs : List Reply} (h : (nextReply rs).1 = .ok) :
    createJob "fsop".toList false n w rs = ⟨.ok w.nextJob, started n w, rs.tail⟩ :=
  bind_eq_ok_iff.mpr ⟨w, w, rs, rfl, bind_eq_ok_iff.mpr
    ⟨(), started n w, rs.tail, exec_eq_ok_iff.mpr ⟨h, rfl, rfl⟩, rfl⟩⟩

omit [Host] in
/-- A lost answer leaves the job behind, a refused statement does not. -/
theorem createJob_of_not_ok {n : ℕ} {w : World} {rs : List Reply} (h : (nextReply rs).1 ≠ .ok) :
    ∃ e, createJob "fsop".toList false n w rs
      = ⟨.error e, if (nextReply rs).1 = .failed then w else started n w, rs.tail⟩ := by
  unfold createJob
  rw [bind_apply, get_apply, andThen_ok, bind_apply]
  unfold exec
  rw [nextReply_eq]
  cases hr : (nextReply rs).1 with
  | ok => exact absurd hr h
  | failed => exact ⟨_, rfl⟩
  | lost => exact ⟨_, rfl⟩

variable {op}

/-- A real run that is past its `INSERT` into `jobs`. -/
theorem fsop_of_ok (frames : List (FrameRef × SysFaults)) (targetDir : Str) {w : World}
    {rs : List Reply} (h : (nextReply rs).1 = .ok) :
    let base := destBase cfg op targetDir w.nextJob
    fsop locate cfg now op.text frames targetDir false w rs
      = (fsopLoop locate now op base w.nextJob frames
          { jobId := w.nextJob, type := op.text, dryRun := false, total := frames.length,
            root := base } >>= fun jr => finishJob w.nextJob jr >>= fun _ => pure jr)
        (started frames.length w) rs.tail := by
  have htext : FsOp.ofText op.text = some op := by
    cases op <;> rfl
  unfold fsop
  rw [htext]
  dsimp only
  rw [if_neg (by simp), bind_apply, createJob_of_ok h, andThen_ok]

theorem fsop_of_not_ok (frames : List (FrameRef × SysFaults)) (targetDir : Str) {w : World}
    {rs : List Reply} (h : (nextReply rs).1 ≠ .ok) :
    (fsop locate cfg now op.text frames targetDir false w rs).store
      = if (nextReply rs).1 = .failed then w else started frames.length w := by
  have htext : FsOp.ofText op.text = some op := by
    cases op <;> rfl
  obtain ⟨e, he⟩ := createJob_of_not_ok (n := frames.length) h
  unfold fsop
  rw [htext]
  dsimp only
  rw [if_neg (by simp), bind_apply, he, andThen_error]

section Closing

variable {locate now} {base : Str} {jobId : ℕ} {frames : List (FrameRef × SysFaults)}
  {jr jr' : JobResult} {w v : World} {rs rs' : List Reply}

/-- The closing statement closes the job of a loop that returned. -/
theorem store_of_closed
    (hrun : fsopLoop locate now op base jobId frames jr w rs = ⟨.ok jr', v, rs'⟩)
    (hr : (nextReply rs').1 ≠ .failed) :
    ((fsopLoop locate now op base jobId frames jr >>= fun jr =>
      finishJob jobId jr >>= fun _ => pure jr) w rs).store = closed jobId jr' v := by
  rw [bind_apply, hrun, andThen_ok, bind_pure_store]
  exact exec_store_of_reply hr rfl

/-- Nothing else does. -/
theorem jobs_of_not_closed (h : ¬ Closes locate now op base jobId frames jr w rs) :
    ((fsopLoop locate now op base jobId frames jr >>= fun jr =>
      finishJob jobId jr >>= fun _ => pure jr) w rs).store.jobs = w.jobs := by
  have hjobs := (fsopLoop_sameJobs locate now jobId op frames jr : Within SameJobs
    (fsopLoop locate now op base jobId frames jr)) w rs
  rw [bind_apply, Done.andThen]
  rcases hd : fsopLoop locate now op base jobId frames jr w rs with ⟨_ | jr', v, rs'⟩
  · rw [hd] at hjobs
    exact hjobs
  · rw [hd] at hjobs
    have hr : (nextReply rs').1 = .failed := by
      by_contra hne
      exact h ⟨jr', v, rs', hd, hne⟩
    dsimp only
    rw [bind_pure_store, show (finishJob jobId jr' v rs').store = v from exec_store_of_failed hr]
    exact hjobs

end Closing

omit [Host] in
/-- A world whose job is still the inserted one is not accounted for. -/
theorem not_accounted_of_running {n : ℕ} {base : Str} {frames fs : List FrameRef} {w v : World}
    (h : v.jobs = (started n w).jobs) : ¬ Accounted locate op base w.nextJob frames fs v := by
  intro ha
  refine ha.finished ⟨w.nextJob, "fsop".toList, "running".toList, false, n, 0, 0⟩ ?_ rfl rfl
  rw [h]
  exact List.mem_append_right _ (by simp)

omit [Host] in
theorem closed_finished (jobId : ℕ) (jr : JobResult) (w : World) :
    ∀ j ∈ (closed jobId jr w).jobs, j.id = jobId → j.status ≠ "running".toList := by
  intro j hj hid
  obtain ⟨k, hk, rfl⟩ := List.mem_map.mp hj
  by_cases hki : k.id = jobId
  · rw [if_pos hki]
    show (if jr.failed = 0 then "done".toList else "failed".toList) ≠ "running".toList
    split <;> decide
  · rw [if_neg hki] at hid
    exact absurd hid hki

omit [Host] in
/-- A filed run is accounted for exactly if every file ends plainly placed. -/
theorem Filed.keepsAccounts_iff {jobId : ℕ} {jr : JobResult} {frames fs : List FrameRef} {base : Str}
    {w v : World} (hroots : (w.roots.map Prod.fst).Nodup)
    (hrows : ∀ f ∈ frames, ∃ q ∈ w.files.rows, q.id = f.fileId ∧ Agrees locate w.roots q f.absPath)
    (hfs : ∀ f ∈ fs, f ∈ frames) (h : Filed op base jobId fs w v) :
    Accounted locate op base jobId frames fs (closed jobId jr v) ↔
      ∀ f ∈ fs, PlainlyPlaced locate w.roots (position base f.fileId f.absPath fs) := by
  have hend : ∀ f ∈ fs, ∀ p, ∃ q ∈ v.files.rows, q.id = f.fileId ∧
      (Agrees locate w.roots q (position base f.fileId p fs) ↔
        PlainlyPlaced locate w.roots (position base f.fileId p fs)) := by
    intro f hf p
    obtain ⟨q₀, hq₀, hq₀i, _⟩ := hrows f (hfs f hf)
    obtain ⟨q, hq, hqi, hw⟩ := h.written f hf (Table.mem_ids.mpr ⟨q₀, hq₀, hq₀i⟩) p
    have hne : position base f.fileId p fs ≠ [] := by
      rw [position_of_moved base p (itemDst base f) ⟨f, hf, rfl⟩]
      exact position_ne_nil base (itemDst_ne_nil base f) fs
    exact ⟨q, hq, hqi, hw.agrees_iff hroots hne⟩
  constructor
  · intro ha f hf
    obtain ⟨q, hq, hqi, hiff⟩ := hend f hf f.absPath
    obtain ⟨q', hq', hqi', hagree⟩ := ha.rows f (hfs f hf)
    rw [v.files.eq_of_id hq' hq (hqi'.trans hqi.symm)] at hagree
    rw [show (closed jobId jr v).roots = w.roots from h.roots] at hagree
    exact hiff.mp hagree
  · intro hown
    refine ⟨fun f hf => ?_, ?_, closed_finished jobId jr v⟩
    · rw [show (closed jobId jr v).roots = w.roots from h.roots]
      by_cases hmoved : ∃ g ∈ fs, g.fileId = f.fileId
      · obtain ⟨g, hg, hgf⟩ := hmoved
        obtain ⟨q, hq, hqi, hiff⟩ := hend g hg g.absPath
        have hagree := hiff.mpr (hown g hg)
        rw [hgf, position_of_moved base g.absPath f.absPath ⟨g, hg, hgf⟩] at hagree
        exact ⟨q, hq, hqi.trans hgf, hagree⟩
      · have hno : ∀ g ∈ fs, g.fileId ≠ f.fileId := fun g hg he => hmoved ⟨g, hg, he⟩
        obtain ⟨q, hq, hqi, hagree⟩ := hrows f hf
        rw [position_of_unmoved base _ hno]
        exact ⟨q, h.kept q hq (by rw [hqi]; exact hno), hqi, hagree⟩
    · obtain ⟨items, heq, hsub⟩ := h.recorded
      rw [show (closed jobId jr v).jobItems = v.jobItems from rfl, heq]
      exact hsub.trans (List.sublist_append_right _ _)

omit [Host] in
theorem moved_subset (locate : Str → Str) (op : FsOp) (base : Str)
    (frames : List (FrameRef × SysFaults)) (t : Files) :
    ∀ f ∈ moved locate op base frames t, f ∈ frames.map Prod.fst := by
  induction frames generalizing t with
  | nil => simp [moved]
  | cons fx rest ih =>
    obtain ⟨g, x⟩ := fx
    intro f hf
    unfold moved at hf
    split at hf
    · rcases List.mem_cons.mp hf with rfl | hf
      · simp
      · exact List.mem_cons_of_mem _ (ih _ f hf)
    · exact List.mem_cons_of_mem _ (ih _ f hf)

/-- **The index after a real move or trash, exactly.**  It is accounted for if the `INSERT` of the
job is refused, or if the run is served and every file ends plainly placed; and only then. -/
theorem accounted_iff (hop : op.destructive = true) (frames : List (FrameRef × SysFaults))
    (targetDir : Str) (w : World) (rs : List Reply)
    (hw : Indexed locate w (frames.map Prod.fst)) :
    Accounted locate op (destBase cfg op targetDir w.nextJob) w.nextJob (frames.map Prod.fst)
        (moved locate op (destBase cfg op targetDir w.nextJob)
          (fsopBegun locate cfg now op frames targetDir w rs) w.tree)
        (fsop locate cfg now op.text frames targetDir false w rs).store ↔
      FsopServed locate cfg now op frames targetDir w rs := by
  let base := destBase cfg op targetDir w.nextJob
  have hids : ∀ fx ∈ frames, fx.1.fileId ∈ w.files.ids := by
    intro fx hfx
    obtain ⟨q, hq, hqi, _⟩ := hw.rows fx.1 (List.mem_map_of_mem hfx)
    exact Table.mem_ids.mpr ⟨q, hq, hqi⟩
  unfold FsopServed
  cases hr : (nextReply rs).1 with
  | ok =>
    have hbegun : fsopBegun locate cfg now op frames targetDir w rs
        = begun locate now op base w.nextJob frames (started frames.length w) rs.tail := by
      unfold fsopBegun
      rw [createJob_of_ok hr]
    let jr : JobResult :=
      { jobId := w.nextJob, type := op.text, dryRun := false, total := frames.length, root := base }
    have hserved : LoopServed locate now op base w.roots frames w.tree w.files rs.tail ↔
        Closes locate now op base w.nextJob frames jr (started frames.length w) rs.tail :=
      loopServed_iff locate now w.nextJob hop frames jr (started frames.length w) rs.tail hids
    rw [hbegun, fsop_of_ok locate cfg now frames targetDir hr]
    by_cases hc : Closes locate now op base w.nextJob frames jr (started frames.length w) rs.tail
    · refine Iff.trans ?_ (and_iff_right (hserved.mpr hc)).symm
      obtain ⟨jr', v, rs', hrun, hfin⟩ := hc
      obtain ⟨hall, hfiled⟩ := fsopLoop_filed locate now w.nextJob hop frames hrun
      rw [store_of_closed hrun hfin, hall]
      exact Filed.keepsAccounts_iff locate (w := started frames.length w) hw.rootIds hw.rows
        (moved_subset locate op base frames w.tree) hfiled
    · refine ⟨fun ha => absurd ha ?_, fun h => absurd (hserved.mp h.1) hc⟩
      exact not_accounted_of_running locate (jobs_of_not_closed hc)
  | failed =>
    have hbegun : fsopBegun locate cfg now op frames targetDir w rs = [] := by
      unfold fsopBegun
      obtain ⟨e, he⟩ := createJob_of_not_ok (n := frames.length) (w := w)
        (show (nextReply rs).1 ≠ .ok by rw [hr]; simp)
      rw [he]
    refine ⟨fun _ => trivial, fun _ => ?_⟩
    rw [hbegun, fsop_of_not_ok locate cfg now frames targetDir (by rw [hr]; simp), if_pos hr]
    exact ⟨hw.rows, List.nil_sublist _, fun j hj hid => absurd (hw.jobIds j hj) (by omega)⟩
  | lost =>
    refine ⟨fun ha => ?_, False.elim⟩
    rw [fsop_of_not_ok locate cfg now frames targetDir (by rw [hr]; simp), if_neg (by rw [hr]; simp)]
      at ha
    exact not_accounted_of_running locate rfl ha

end FsopRun

end Server

/-! ### A row in the way -/

section InTheWay

attribute [local instance] plainHost

/-- The two files of the root `/r`, where `b/x` is gone from the disk and its row is `missing`. -/
def oneGone : World :=
  { twoNights with
    tree := fun l => if l = "/r/a/x".toList then some (.file "1".toList) else none
    files := twoNights.files.modify (fun q => q.id = 2) missingRow }

theorem oneGone_indexed : Indexed id oneGone [frameA] where
  rootIds := by decide
  jobIds := by simp [oneGone, twoNights]
  rows := by
    intro f hf
    rw [List.mem_singleton.mp hf]
    refine ⟨(indexedFile "a/x".toList "x".toList).make 1, by decide, rfl, Or.inl ⟨by decide, ?_⟩⟩
    exact ⟨(1, "/r".toList), by decide, rfl, by decide⟩

/-- A move within the root to a path no row holds is accounted for. -/
theorem accounted_one :
    Accounted id .move "/r/c".toList 1 [frameA]
      (moved id .move "/r/c".toList (fsopBegun id plainConfig 0 .move [(frameA, {})] "/r/c".toList
        oneGone []) oneGone.tree)
      (fsop id plainConfig 0 "move".toList [(frameA, {})] "/r/c".toList false oneGone []).store := by
  refine (accounted_iff id plainConfig 0 rfl [(frameA, {})] "/r/c".toList oneGone []
    oneGone_indexed).mpr ?_
  refine ⟨⟨by simp [Healthy], by decide, ?_⟩, by decide⟩
  show (nextReply []).1 ≠ .failed
  decide

/-- Moved to `/r/b`, the file meets the `missing` row of `b/x`: its own row stays at `a/x`, nothing
is recorded, and the job is left `running`. -/
theorem blocked_by_missing :
    Indexed id oneGone [frameA] ∧
      ¬ Accounted id .move "/r/b".toList 1 [frameA]
        (moved id .move "/r/b".toList (fsopBegun id plainConfig 0 .move [(frameA, {})] "/r/b".toList
          oneGone []) oneGone.tree)
        (fsop id plainConfig 0 "move".toList [(frameA, {})] "/r/b".toList false oneGone []).store := by
  refine ⟨oneGone_indexed, fun ha => ?_⟩
  have hjobs : (fsop id plainConfig 0 "move".toList [(frameA, {})] "/r/b".toList false oneGone
      []).store.jobs = [⟨1, "fsop".toList, "running".toList, false, 1, 0, 0⟩] := rfl
  exact ha.finished _ (by rw [hjobs]; exact List.mem_singleton_self _) rfl rfl

end InTheWay

end StarBase.Action
