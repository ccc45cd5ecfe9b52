import Mathlib.Data.List.Sort
import StarBase.Lib.FileTree
import StarBase.Index.Files

/-!
# The action engine: file operations over a set of frames

`fsop` copies, links, moves or trashes the files of a set of frames into one directory and writes
moves back into the index.

* `perform` — the system calls of one item on the file tree;
* `fsopItem`, `fsopLoop`, `fsop` — the program over the file tree and the database;
* `ItemSpares`, `FsopSpares` — no rename of the run replaces the last file with its content;
* `fsop_keeps_iff` — **PROVED**: a real move or trash keeps every content exactly under
  `FsopSpares`, whatever the operating system and the server do.

The answers of the operating system and of the server are parameters.  Left out are the directories
that a run creates, permissions, and the columns of `jobs` that nothing reads.
-/

namespace StarBase.Action

open Relational Statements FileTree

/-! ### Paths -/

/-- `path / name` for a relative `name`. -/
def joinPath (dir name : Str) : Str :=
  if dir = [] then name
  else if dir.getLast? = some '/' then dir ++ name
  else dir ++ '/' :: name

/-- A filesystem-safe leaf name: keep it, but never let it escape its directory. -/
def safeName (name : Str) : Str :=
  let s := name.map fun c => if c = '/' ∨ c = '\x00' then '_' else c
  if s = ".".toList ∨ s = "..".toList ∨ s = [] then "_".toList else s

/-! ### Configuration, frames and results -/

structure ActionConfig where
  stagingRoot : Str
  trashRoot : Str
  linkMode : Str

structure FrameRef where
  frameId : ℕ
  fileId : ℕ
  rootId : ℕ
  absPath : Str
  relPath : Str
  filename : Str
  imageType : Str

structure ItemResult where
  frameId : ℕ
  action : Str
  src : Str
  dst : Str
  status : Str
  detail : Str

structure JobResult where
  jobId : ℕ := 0
  type : Str
  dryRun : Bool
  total : ℕ
  done : ℕ := 0
  failed : ℕ := 0
  root : Str := []
  items : List ItemResult := []

def JobResult.add (jr : JobResult) (it : ItemResult) : JobResult :=
  if it.status = "ok".toList then { jr with done := jr.done + 1, items := jr.items ++ [it] }
  else { jr with failed := jr.failed + 1, items := jr.items ++ [it] }

/-- The operations, with `op` as the request spells it. -/
inductive FsOp
  | copy
  | symlink
  | move
  | trash
  deriving DecidableEq, Repr

def FsOp.ofText (s : Str) : Option FsOp :=
  if s = "copy".toList then some .copy
  else if s = "symlink".toList then some .symlink
  else if s = "move".toList then some .move
  else if s = "trash".toList then some .trash
  else none

def FsOp.text : FsOp → Str
  | .copy => "copy".toList
  | .symlink => "symlink".toList
  | .move => "move".toList
  | .trash => "trash".toList

def FsOp.destructive (op : FsOp) : Bool := op = .move || op = .trash

/-! ### The file tree -/

/-- Locations are resolved paths; files hold byte strings; a link holds a path. -/
abbrev Files := Tree Str Str Str

/-- The errors the operating system gives to the calls of one item, beside those that the tree
itself explains: a full disk, a missing permission, another device. -/
structure SysFaults where
  rename : Option Str := none
  copy : Option Str := none
  remove : Option Str := none
  symlink : Option Str := none

section Calls

variable (locate : Str → Str)

/-- Symbolic links are followed this deep. -/
def maxSymlinks : ℕ := 40

/-- `copy_file`, which fails on an existing target. -/
def copyFile (fault : Option Str) (t : Files) (src dst : Str) : Except Str Files :=
  match readContent locate (maxSymlinks + 1) t (locate src), fault with
  | none, _ => .error "No such file or directory".toList
  | some _, some msg => .error msg
  | some c, none =>
    if (t (locate dst)).isSome then .error "File exists".toList
    else .ok (put t (locate dst) (.file c))

def createSymlink (fault : Option Str) (t : Files) (src dst : Str) : Except Str Files :=
  match fault with
  | some msg => .error msg
  | none =>
    if (t (locate dst)).isSome then .error "File exists".toList
    else .ok (put t (locate dst) (.link src))

/-- `rename(2)`, which replaces an existing target. -/
def renameFile (fault : Option Str) (t : Files) (src dst : Str) : Except Str Files :=
  match fault with
  | some msg => .error msg
  | none =>
    if (t (locate src)).isNone then .error "No such file or directory".toList
    else .ok (rename t (locate src) (locate dst))

/-- `rename`, falling back to copy and remove across devices.  A failed removal leaves the error
code of the copy, which is none. -/
def relocate (x : SysFaults) (t : Files) (src dst : Str) : Except Str Unit × Files :=
  match renameFile locate x.rename t src dst with
  | .ok u => (.ok (), u)
  | .error _ =>
    match copyFile locate x.copy t src dst with
    | .error msg => (.error msg, t)
    | .ok u =>
      match x.remove with
      | some _ => (.error "Success".toList, u)
      | none => (.ok (), remove u (locate src))

/-- The system calls of one item, with the result and the tree they leave. -/
def perform (op : FsOp) (x : SysFaults) (t : Files) (src dst : Str) : Except Str Unit × Files :=
  let plain (r : Except Str Files) : Except Str Unit × Files :=
    match r with
    | .ok u => (.ok (), u)
    | .error msg => (.error msg, t)
  match op with
  | .copy => plain (copyFile locate x.copy t src dst)
  | .symlink => plain (createSymlink locate x.symlink t src dst)
  | .move => relocate locate x t src dst
  | .trash => relocate locate x t src dst

end Calls

/-! ### What one item does to the contents -/

section Contents

variable (locate : Str → Str)

/-- The item's rename goes through and moves its source to another location. -/
def Renames (t : Files) (src dst : Str) (x : SysFaults) : Prop :=
  x.rename = none ∧ t (locate src) ≠ none ∧ locate src ≠ locate dst

/-- If the item's rename goes through, what it replaces is held elsewhere too. -/
def Spares (t : Files) (src dst : Str) (x : SysFaults) : Prop :=
  Renames locate t src dst x → HeldElsewhere t (locate dst)

variable {locate}

theorem copyFile_ok {fault : Option Str} {t u : Files} {src dst : Str}
    (h : copyFile locate fault t src dst = .ok u) :
    ∃ c, readContent locate (maxSymlinks + 1) t (locate src) = some c ∧ t (locate dst) = none ∧
      u = put t (locate dst) (.file c) := by
  unfold copyFile at h
  split at h
  · cases h
  · cases h
  · next c hc =>
    split at h
    · cases h
    · next hfree =>
      cases h
      exact ⟨c, hc, by simpa using hfree, rfl⟩

theorem copyFile_noNew {fault : Option Str} {t u : Files} {src dst : Str}
    (h : copyFile locate fault t src dst = .ok u) : NoNew t u := by
  obtain ⟨c, hc, _, rfl⟩ := copyFile_ok h
  exact noNew_put_file t _ (holds_of_readContent locate _ hc)

theorem copyFile_keeps {fault : Option Str} {t u : Files} {src dst : Str}
    (h : copyFile locate fault t src dst = .ok u) : Keeps t u := by
  obtain ⟨c, _, hfree, rfl⟩ := copyFile_ok h
  exact keeps_put t _ hfree

/-- After a copy the source can be removed. -/
theorem copyFile_remove_keeps {fault : Option Str} {t u : Files} {src dst : Str}
    (h : copyFile locate fault t src dst = .ok u) : Keeps u (remove u (locate src)) := by
  refine keeps_remove u fun d hd => ?_
  obtain ⟨c, hc, hfree, rfl⟩ := copyFile_ok h
  have hne : locate src ≠ locate dst := by
    intro he
    rw [← he] at hfree
    unfold readContent at hc
    rw [hfree] at hc
    cases hc
  have hsrc : t (locate src) = some (.file d) := by simpa [put, hne] using hd
  have hcd : c = d := by
    unfold readContent at hc
    rw [hsrc] at hc
    exact (Option.some.inj hc).symm
  exact ⟨locate dst, hne.symm, by simp [put, hcd]⟩

theorem renameFile_ok {fault : Option Str} {t u : Files} {src dst : Str}
    (h : renameFile locate fault t src dst = .ok u) :
    fault = none ∧ t (locate src) ≠ none ∧ u = rename t (locate src) (locate dst) := by
  unfold renameFile at h
  split at h
  · cases h
  · split at h
    · cases h
    · next hsrc =>
      cases h
      exact ⟨rfl, by simpa using hsrc, rfl⟩

theorem renameFile_error {fault : Option Str} {t : Files} {src dst : Str} {msg : Str}
    (h : renameFile locate fault t src dst = .error msg) :
    ¬ (fault = none ∧ t (locate src) ≠ none) := by
  intro hok
  unfold renameFile at h
  rw [hok.1] at h
  dsimp only at h
  rw [if_neg (by simpa using hok.2)] at h
  cases h

theorem relocate_noNew (locate : Str → Str) (x : SysFaults) (t : Files) (src dst : Str) :
    NoNew t (relocate locate x t src dst).2 := by
  unfold relocate
  cases hr : renameFile locate x.rename t src dst with
  | ok u =>
    obtain ⟨_, _, rfl⟩ := renameFile_ok hr
    exact noNew_rename t _ _
  | error msg =>
    dsimp only
    cases hc : copyFile locate x.copy t src dst with
    | error msg => exact noNew_refl t
    | ok u =>
      cases x.remove with
      | some msg => exact copyFile_noNew hc
      | none => exact (copyFile_noNew hc).trans (noNew_remove u _)

/-- **A relocation keeps every content exactly if its rename spares the last file with one.** -/
theorem relocate_keeps_iff (locate : Str → Str) (x : SysFaults) (t : Files) (src dst : Str) :
    Keeps t (relocate locate x t src dst).2 ↔ Spares locate t src dst x := by
  unfold relocate Spares
  cases hr : renameFile locate x.rename t src dst with
  | ok u =>
    obtain ⟨hx, hsrc, rfl⟩ := renameFile_ok hr
    dsimp only
    by_cases hne : locate src = locate dst
    · rw [hne, rename_self]
      exact ⟨fun _ h => absurd hne h.2.2, fun _ => keeps_refl t⟩
    · rw [keeps_rename_iff t hne]
      exact ⟨fun h _ => h, fun h => h ⟨hx, hsrc, hne⟩⟩
  | error msg =>
    have hno : ¬ Renames locate t src dst x := fun h => renameFile_error hr ⟨h.1, h.2.1⟩
    refine ⟨fun _ h => absurd h hno, fun _ => ?_⟩
    dsimp only
    cases hc : copyFile locate x.copy t src dst with
    | error msg => exact keeps_refl t
    | ok u =>
      cases x.remove with
      | some msg => exact copyFile_keeps hc
      | none => exact fun c h => copyFile_remove_keeps hc c (copyFile_keeps hc c h)

end Contents

theorem perform_of_destructive {locate : Str → Str} {op : FsOp} (h : op.destructive = true) (x : SysFaults) (t : Files)
    (src dst : Str) : perform locate op x t src dst = relocate locate x t src dst := by
  cases op with
  | copy => cases h
  | symlink => cases h
  | move => rfl
  | trash => rfl

/-! ### The database side -/

structure JobRow where
  id : ℕ
  type : Str
  status : Str
  dryRun : Bool
  totalItems : ℕ
  doneItems : ℕ
  failedItems : ℕ

/-- The file tree with the tables the action engine uses. -/
structure World where
  tree : Files
  roots : List (ℕ × Str)
  files : Table fileKeying
  nextJob : ℕ
  jobs : List JobRow
  jobItems : List (ℕ × ItemResult)

abbrev Run (α : Type) := Prog World Thrown α

/-- The files are the same. -/
def SameTree (w v : World) : Prop := v.tree = w.tree

theorem sameTree_refl (w : World) : SameTree w w := rfl

theorem sameTree_trans (u v w : World) (h : SameTree u v) (h' : SameTree v w) : SameTree u w :=
  h'.trans h

/-- `path` is `root` itself or below it. -/
def underRoot (root path : Str) : Bool :=
  root ≠ [] && root.isPrefixOf path &&
    (path.length = root.length || path[root.length]? = some '/')

/-- The longest registered root whose path is a path-component prefix of `path`. -/
def rootFor (roots : List (ℕ × Str)) (path : Str) : Option (ℕ × Str) :=
  (roots.insertionSort fun a b => b.2.length ≤ a.2.length).find? fun r => underRoot r.2 path

def createJob (type : Str) (dryRun : Bool) (total : ℕ) : Run ℕ := do
  let w ← get
  exec fun w => .ok { w with
    nextJob := w.nextJob + 1
    jobs := w.jobs ++ [⟨w.nextJob, type, "running".toList, dryRun, total, 0, 0⟩] }
  pure w.nextJob

def recordItem (jobId : ℕ) (it : ItemResult) : Run Unit :=
  exec fun w => .ok { w with jobItems := w.jobItems ++ [(jobId, it)] }

def finishJob (jobId : ℕ) (jr : JobResult) : Run Unit :=
  exec fun w => .ok { w with
    jobs := w.jobs.map fun j =>
      if j.id = jobId then
        { j with
          status := if jr.failed = 0 then "done".toList else "failed".toList
          doneItems := jr.done
          failedItems := jr.failed }
      else j }

theorem recordItem_sameTree (jobId : ℕ) (it : ItemResult) : Within SameTree (recordItem jobId it) :=
  within_exec sameTree_refl fun _ _ h => by cases h; rfl

theorem finishJob_sameTree (jobId : ℕ) (jr : JobResult) : Within SameTree (finishJob jobId jr) :=
  within_exec sameTree_refl fun _ _ h => by cases h; rfl

theorem createJob_sameTree (type : Str) (dryRun : Bool) (total : ℕ) :
    Within SameTree (createJob type dryRun total) := by
  refine within_bind sameTree_trans (readOnly_get.within sameTree_refl) fun w => ?_
  refine within_bind sameTree_trans ?_ fun _ => within_pure sameTree_refl _
  exact within_exec sameTree_refl fun _ _ h => by cases h; rfl

section Server

variable [Host]

/-- The `UPDATE files` of a file that stays under a root; refused when the path is taken. -/
def reanchorFile (now : Micros) (fileId rootId : ℕ) (newRel : Str) : Run Unit :=
  exec fun w =>
    match w.files.rekey fileId (fun r =>
        { r with
          rootId := rootId
          relPath := newRel
          relPathHash := Host.md5 newRel
          status := .ok
          lastSeenUtc := some (wholeSecond now * 1000000) }) (fun _ => rfl) with
    | some files => .ok { w with files := files }
    | none => .error (.std "Duplicate entry".toList)

/-- The `UPDATE files` of a file that has left the index. -/
def leaveIndex (fileId : ℕ) : Run Unit :=
  exec fun w => .ok { w with files := w.files.modify (fun r => r.id = fileId) missingRow }

/-- Write a move back into the index. -/
def writeBack (now : Micros) (fileId : ℕ) (dst : Str) : Run Unit := do
  let root ← query fun w => rootFor w.roots dst
  match root with
  | some (rid, rpath) =>
    let newRel := dst.drop rpath.length
    reanchorFile now fileId rid (if newRel.head? = some '/' then newRel.tail else newRel)
  | none => leaveIndex fileId

/-- Only a destructive operation is written back. -/
def writeBackIf (destructive : Bool) (now : Micros) (fileId : ℕ) (dst : Str) : Run Unit :=
  if destructive then writeBack now fileId dst else pure ()

/-! ### `fsop` -/

section Fsop

variable (locate : Str → Str)

/-- One item of a real run. -/
def fsopItem (now : Micros) (op : FsOp) (destBase : Str) (jobId : ℕ) (f : FrameRef)
    (x : SysFaults) : Run ItemResult := do
  let dst := joinPath destBase (safeName f.filename)
  let out ← modifyGet fun w =>
    let r := perform locate op x w.tree f.absPath dst
    (r.1, { w with tree := r.2 })
  match out with
  | .error msg => do
    let it : ItemResult := ⟨f.frameId, op.text, f.absPath, dst, "failed".toList, msg⟩
    recordItem jobId it
    pure it
  | .ok _ => do
    writeBackIf op.destructive now f.fileId dst
    let it : ItemResult := ⟨f.frameId, op.text, f.absPath, dst, "ok".toList, []⟩
    recordItem jobId it
    pure it

def fsopLoop (now : Micros) (op : FsOp) (destBase : Str) (jobId : ℕ) :
    List (FrameRef × SysFaults) → JobResult → Run JobResult
  | [], jr => pure jr
  | (f, x) :: rest, jr => do
    let it ← fsopItem locate now op destBase jobId f x
    fsopLoop now op destBase jobId rest (jr.add it)

/-- The destination directory: the target, or the job's directory under the trash root. -/
def destBase (cfg : ActionConfig) (op : FsOp) (targetDir : Str) (jobId : ℕ) : Str :=
  if op = .trash then joinPath cfg.trashRoot ("job-".toList ++ natText jobId) else targetDir

/-- What a dry run lists for a frame. -/
def dryItem (op : FsOp) (base : Str) (f : FrameRef) : ItemResult :=
  ⟨f.frameId, op.text, f.absPath, joinPath base (safeName f.filename), "ok".toList,
    "would ".toList ++ op.text⟩

/-- Filesystem operation over a set of frames, each with the faults its system calls meet. -/
def fsop (cfg : ActionConfig) (now : Micros) (opText : Str) (frames : List (FrameRef × SysFaults))
    (targetDir : Str) (dryRun : Bool) : Run JobResult :=
  match FsOp.ofText opText with
  | none => throw (.std ("unknown fsop '".toList ++ opText ++ "'".toList))
  | some op =>
    if dryRun then
      let base := destBase cfg op targetDir 0
      pure ((frames.map fun fx => dryItem op base fx.1).foldl JobResult.add
        { type := opText, dryRun := true, total := frames.length, root := base })
    else do
      let jobId ← createJob "fsop".toList false frames.length
      let base := destBase cfg op targetDir jobId
      let jr ← fsopLoop locate now op base jobId frames
        { jobId := jobId, type := opText, dryRun := false, total := frames.length, root := base }
      finishJob jobId jr
      pure jr

end Fsop

/-! ### What a run does to them -/

theorem writeBack_sameTree (now : Micros) (fileId : ℕ) (dst : Str) :
    Within SameTree (writeBack now fileId dst) := by
  refine within_bind sameTree_trans (within_query sameTree_refl _) fun root => ?_
  cases root with
  | none => exact within_exec sameTree_refl fun _ _ h => by cases h; rfl
  | some r =>
    refine within_exec sameTree_refl fun v u h => ?_
    split at h
    · cases h
      rfl
    · cases h

section Run

variable (locate : Str → Str) (now : Micros) (op : FsOp) (base : Str) (jobId : ℕ)

/-- An item's only effect on the files is that of its system calls. -/
theorem fsopItem_tree (f : FrameRef) (x : SysFaults) (w : World) (rs : List Reply) :
    (fsopItem locate now op base jobId f x w rs).store.tree
      = (perform locate op x w.tree f.absPath (joinPath base (safeName f.filename))).2 := by
  unfold fsopItem
  rw [bind_apply, modifyGet_apply, andThen_ok]
  dsimp only
  cases (perform locate op x w.tree f.absPath (joinPath base (safeName f.filename))).1 with
  | error msg =>
    exact within_bind sameTree_trans (recordItem_sameTree jobId _)
      (fun _ => within_pure sameTree_refl _) _ _
  | ok _ =>
    dsimp only
    refine within_bind sameTree_trans ?_ (fun _ => within_bind sameTree_trans
      (recordItem_sameTree jobId _) fun _ => within_pure sameTree_refl _) _ _
    cases op.destructive with
    | true => exact writeBack_sameTree now f.fileId _
    | false => exact within_pure sameTree_refl _

/-- Each item of the run, in the tree it meets, spares what its rename replaces; an exception ends
the run. -/
def LoopSpares : List (FrameRef × SysFaults) → World → List Reply → Prop
  | [], _, _ => True
  | (f, x) :: rest, w, rs =>
    Spares locate w.tree f.absPath (joinPath base (safeName f.filename)) x ∧
      match fsopItem locate now op base jobId f x w rs with
      | ⟨.ok _, v, rs'⟩ => LoopSpares rest v rs'
      | ⟨.error _, _, _⟩ => True

variable {op}

theorem fsopLoop_noNew (h : op.destructive = true) (frames : List (FrameRef × SysFaults))
    (jr : JobResult) (w : World) (rs : List Reply) :
    NoNew w.tree (fsopLoop locate now op base jobId frames jr w rs).store.tree := by
  induction frames generalizing jr w rs with
  | nil => exact noNew_refl _
  | cons fx rest ih =>
    obtain ⟨f, x⟩ := fx
    have hitem := fsopItem_tree locate now op base jobId f x w rs
    rw [perform_of_destructive h] at hitem
    have hnew : NoNew w.tree (fsopItem locate now op base jobId f x w rs).store.tree := by
      rw [hitem]
      exact relocate_noNew locate x _ _ _
    unfold fsopLoop
    rw [bind_apply, Done.andThen]
    cases (fsopItem locate now op base jobId f x w rs).result with
    | error e => exact hnew
    | ok it => exact hnew.trans (ih _ _ _)

/-- The loop keeps every content exactly if each of its items does. -/
theorem fsopLoop_keeps_iff (h : op.destructive = true) (frames : List (FrameRef × SysFaults))
    (jr : JobResult) (w : World) (rs : List Reply) :
    Keeps w.tree (fsopLoop locate now op base jobId frames jr w rs).store.tree ↔
      LoopSpares locate now op base jobId frames w rs := by
  induction frames generalizing jr w rs with
  | nil => exact ⟨fun _ => trivial, fun _ => keeps_refl _⟩
  | cons fx rest ih =>
    obtain ⟨f, x⟩ := fx
    have hitem := fsopItem_tree locate now op base jobId f x w rs
    rw [perform_of_destructive h] at hitem
    have hkeep := relocate_keeps_iff locate x w.tree f.absPath
      (joinPath base (safeName f.filename))
    have hnew := relocate_noNew locate x w.tree f.absPath
      (joinPath base (safeName f.filename))
    rw [← hitem] at hkeep hnew
    unfold fsopLoop LoopSpares
    rw [bind_apply, Done.andThen]
    rcases hd : fsopItem locate now op base jobId f x w rs with ⟨_ | it, v, rs'⟩
    · rw [hd] at hkeep
      exact hkeep.trans ⟨fun hs => ⟨hs, trivial⟩, fun hs => hs.1⟩
    · rw [hd] at hkeep hnew
      dsimp only
      rw [keeps_trans_iff hnew (fsopLoop_noNew locate now base jobId h rest _ v rs'), hkeep, ih]

end Run

/-- No rename of a real run replaces the last file with its content. -/
def FsopSpares (locate : Str → Str) (cfg : ActionConfig) (now : Micros) (op : FsOp)
    (frames : List (FrameRef × SysFaults)) (targetDir : Str) (w : World) (rs : List Reply) : Prop :=
  match createJob "fsop".toList false frames.length w rs with
  | ⟨.ok jobId, v, rs'⟩ =>
    LoopSpares locate now op (destBase cfg op targetDir jobId) jobId frames v rs'
  | ⟨.error _, _, _⟩ => True

/-- **Losslessness, exactly.**  A real move or trash keeps every file content exactly if none of
its renames replaces the last file with its content. -/
theorem fsop_keeps_iff (locate : Str → Str) (cfg : ActionConfig) (now : Micros) (op : FsOp)
    (hop : op.destructive = true) (frames : List (FrameRef × SysFaults)) (targetDir : Str)
    (w : World) (rs : List Reply) :
    Keeps w.tree (fsop locate cfg now op.text frames targetDir false w rs).store.tree ↔
      FsopSpares locate cfg now op frames targetDir w rs := by
  have htext : FsOp.ofText op.text = some op := by
    cases op <;> rfl
  have hjob := createJob_sameTree "fsop".toList false frames.length w rs
  unfold fsop FsopSpares
  rw [htext]
  dsimp only
  rw [if_neg (by simp), bind_apply, Done.andThen]
  rcases hd : createJob "fsop".toList false frames.length w rs with ⟨_ | jobId, v, rs'⟩
  · rw [hd] at hjob
    have hv : v.tree = w.tree := hjob
    dsimp only
    rw [hv]
    exact ⟨fun _ => trivial, fun _ => keeps_refl _⟩
  · rw [hd] at hjob
    have hv : v.tree = w.tree := hjob
    have hloop := fsopLoop_keeps_iff locate now
      (destBase cfg op targetDir jobId) jobId hop frames
      { jobId := jobId, type := op.text, dryRun := false, total := frames.length,
        root := destBase cfg op targetDir jobId } v rs'
    rw [hv] at hloop
    dsimp only
    rw [← hloop, bind_apply, Done.andThen]
    rcases fsopLoop locate now op (destBase cfg op targetDir jobId) jobId frames
      { jobId := jobId, type := op.text, dryRun := false, total := frames.length,
        root := destBase cfg op targetDir jobId } v rs' with ⟨_ | jr, u, rs''⟩
    · exact Iff.rfl
    · have hfin : ((finishJob jobId jr >>= fun _ => pure jr : Run JobResult) u rs'').store.tree
          = u.tree :=
        within_bind sameTree_trans (finishJob_sameTree jobId jr)
          (fun _ => within_pure sameTree_refl _) u rs''
      dsimp only
      rw [hfin]

end Server

/-! ### Two frames of one name -/

section Collision

attribute [local instance] plainHost

/-- A file indexed under the root with id 1. -/
def indexedFile (rel name : Str) : RowMaker fileKeying (1, Host.md5 rel) where
  make id :=
    { id := id
      rootId := 1
      relPath := rel
      relPathHash := Host.md5 rel
      filename := name
      ext := none
      format := .fits
      bucket := .other
      sizeBytes := none
      mtimeUtc := none
      inode := none
      status := .ok
      error := none
      firstSeenUtc := 0
      lastSeenUtc := none
      lastIndexedUtc := none }
  id_make _ := rfl
  key_make _ := rfl

/-- Two files called `x` in different directories of the root `/r`, both indexed. -/
def twoNights : World where
  tree l :=
    if l = "/r/a/x".toList then some (.file "1".toList)
    else if l = "/r/b/x".toList then some (.file "2".toList)
    else none
  roots := [(1, "/r".toList)]
  files := ((Table.empty fileKeying).upsert _ (indexedFile "a/x".toList "x".toList)
      ⟨id, fun _ => rfl, fun _ => rfl⟩).upsert _ (indexedFile "b/x".toList "x".toList)
      ⟨id, fun _ => rfl, fun _ => rfl⟩
  nextJob := 1
  jobs := []
  jobItems := []

def frameA : FrameRef := ⟨1, 1, 1, "/r/a/x".toList, "a/x".toList, "x".toList, "light".toList⟩

def frameB : FrameRef := ⟨2, 2, 1, "/r/b/x".toList, "b/x".toList, "x".toList, "light".toList⟩

def plainConfig : ActionConfig := ⟨"/s".toList, "/t".toList, "symlink".toList⟩

/-- One of the two files can be moved into an empty directory. -/
theorem fsop_keeps_one : Keeps twoNights.tree
    (fsop id plainConfig 0 "move".toList [(frameA, {})] "/out".toList false twoNights []).store.tree := by
  refine (fsop_keeps_iff id plainConfig 0 .move rfl [(frameA, {})] "/out".toList twoNights []).mpr ?_
  refine ⟨fun _ c hc => ?_, ?_⟩
  · have hfree : twoNights.tree "/out/x".toList = none := by decide
    exact absurd (hfree.symm.trans hc) (by simp)
  · split <;> trivial

/-- Moving both into `/out` leaves no file with the content of the first. -/
theorem fsop_loses_content :
    twoNights.tree frameA.absPath = some (.file "1".toList) ∧
      twoNights.tree frameB.absPath = some (.file "2".toList) ∧
      ¬ Keeps twoNights.tree (fsop id plainConfig 0 "move".toList
        [(frameA, {}), (frameB, {})] "/out".toList false twoNights []).store.tree := by
  refine ⟨rfl, rfl, fun hk => ?_⟩
  obtain ⟨l, hl⟩ := hk "1".toList ⟨"/r/a/x".toList, rfl⟩
  have htree : (fsop id plainConfig 0 "move".toList [(frameA, {}), (frameB, {})] "/out".toList false
      twoNights []).store.tree = rename (rename twoNights.tree "/r/a/x".toList "/out/x".toList)
        "/r/b/x".toList "/out/x".toList := rfl
  rw [htree] at hl
  have hab : "/r/a/x".toList ≠ "/out/x".toList := by decide
  have hbo : "/r/b/x".toList ≠ "/out/x".toList := by decide
  by_cases ho : l = "/out/x".toList
  · subst ho
    rw [rename_dst _ hbo] at hl
    exact absurd hl (by decide)
  · by_cases hb : l = "/r/b/x".toList
    · subst hb
      rw [rename_src _ hbo] at hl
      cases hl
    · rw [rename_other _ ho hb] at hl
      by_cases ha : l = "/r/a/x".toList
      · subst ha
        rw [rename_src _ hab] at hl
        cases hl
      · rw [rename_other _ ho ha] at hl
        have hnone : twoNights.tree l = none := by
          unfold twoNights
          dsimp only
          rw [if_neg ha, if_neg hb]
        rw [hnone] at hl
        cases hl

end Collision

end StarBase.Action
