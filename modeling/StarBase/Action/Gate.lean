import StarBase.Action.WriteBack

/-!
# The writable flag of a root

Every registered root carries a flag `writable`, which a file operation does not read: neither the
route nor `fsop` asks for it.

* `Call`, `relocateCalls`, `runCalls` — the system calls of a run that go through;
* `Call.Gated` — a call neither takes a file away from a locked location nor replaces one there;
* `FlagKept` — every call of a run is gated, and what was at a locked location is there at the end;
* `ItemUnlocked` — a condition on an item's two paths, on the tree it meets and on the errors that
  the operating system gives;
* `fsop_gated_iff` — **PROVED**: a real move or trash respects the flag exactly if every item it
  begins is unlocked.

The route adds nothing: the frames come from a filter or from ids, and any of them reaches `fsop`.
-/

namespace StarBase.Action

open Relational Statements FileTree

/-- The world with these roots registered. -/
def World.registered (table : List RootRow) (w : World) : World :=
  { w with roots := table.map fun r => (r.id, r.path) }

/-! ### The calls of a run -/

/-- A system call that changes the tree. -/
inductive Call
  | rename (src dst : Str)
  | copy (src dst : Str)
  | remove (path : Str)
  deriving DecidableEq

section Calls

variable (locate : Str → Str)

/-- The tree after a call that goes through. -/
def Call.apply (t : Files) : Call → Files
  | .rename src dst => FileTree.rename t (locate src) (locate dst)
  | .copy src dst =>
    match readContent locate (maxSymlinks + 1) t (locate src) with
    | some c => put t (locate dst) (.file c)
    | none => t
  | .remove path => FileTree.remove t (locate path)

/-- The calls of one relocation that go through, in their order. -/
def relocateCalls (x : SysFaults) (t : Files) (src dst : Str) : List Call :=
  match renameFile locate x.rename t src dst with
  | .ok _ => [.rename src dst]
  | .error _ =>
    match copyFile locate x.copy t src dst with
    | .error _ => []
    | .ok _ =>
      match x.remove with
      | some _ => [.copy src dst]
      | none => [.copy src dst, .remove src]

/-- The calls, one after the other, take the tree to where the relocation takes it. -/
theorem foldl_relocateCalls (x : SysFaults) (t : Files) (src dst : Str) :
    (relocateCalls locate x t src dst).foldl (Call.apply locate) t
      = (relocate locate x t src dst).2 := by
  unfold relocateCalls relocate
  cases hr : renameFile locate x.rename t src dst with
  | ok u =>
    obtain ⟨_, _, rfl⟩ := renameFile_ok hr
    rfl
  | error msg =>
    dsimp only
    cases hc : copyFile locate x.copy t src dst with
    | error msg => rfl
    | ok u =>
      obtain ⟨c, hread, _, rfl⟩ := copyFile_ok hc
      have hcopy : Call.apply locate t (.copy src dst) = put t (locate dst) (.file c) := by
        simp [Call.apply, hread]
      cases x.remove with
      | some msg => exact hcopy
      | none =>
        show Call.apply locate (Call.apply locate t (.copy src dst)) (.remove src) = _
        rw [hcopy]
        rfl

/-- The calls of the items, each on the tree that the one before it leaves. -/
def runCalls (base : Str) : List (FrameRef × SysFaults) → Files → List Call
  | [], _ => []
  | (f, x) :: rest, t =>
    relocateCalls locate x t f.absPath (itemDst base f) ++
      runCalls base rest (relocate locate x t f.absPath (itemDst base f)).2

/-! ### Locked locations -/

/-- The location is that of a root that is not writable, or below it. -/
def LockedAt (table : List RootRow) (l : Str) : Prop :=
  ∃ r ∈ table, r.writable = false ∧ components (locate r.path) <+: components l

instance (table : List RootRow) (l : Str) : Decidable (LockedAt locate table l) :=
  inferInstanceAs (Decidable (∃ r ∈ table, _ ∧ _))

/-- The call neither takes a file away from a locked location nor replaces one there.  A rename
between two names of one location does nothing. -/
def Call.Gated (table : List RootRow) (t : Files) : Call → Prop
  | .rename src dst =>
    locate src ≠ locate dst →
      ¬ LockedAt locate table (locate src) ∧
        (LockedAt locate table (locate dst) → t (locate dst) = none)
  | .copy _ dst => LockedAt locate table (locate dst) → t (locate dst) = none
  | .remove path => ¬ LockedAt locate table (locate path)

/-- Every call is gated on the tree it meets. -/
def AllGated (table : List RootRow) : List Call → Files → Prop
  | [], _ => True
  | c :: cs, t => c.Gated locate table t ∧ AllGated table cs (c.apply locate t)

/-- What is at a locked location stays there. -/
def LockedKept (table : List RootRow) (t u : Files) : Prop :=
  ∀ l, LockedAt locate table l → t l ≠ none → u l = t l

variable {locate} {table : List RootRow} {t u v : Files}

theorem LockedKept.trans (h : LockedKept locate table t u) (h' : LockedKept locate table u v) :
    LockedKept locate table t v := by
  intro l hl hocc
  have hu := h l hl hocc
  exact (h' l hl (hu ▸ hocc)).trans hu

theorem allGated_append (cs ds : List Call) (t : Files) :
    AllGated locate table (cs ++ ds) t ↔
      AllGated locate table cs t ∧ AllGated locate table ds (cs.foldl (Call.apply locate) t) := by
  induction cs generalizing t with
  | nil => simp [AllGated]
  | cons c cs ih => simp [AllGated, ih, and_assoc]

/-- A gated call leaves what is at a locked location. -/
theorem Call.Gated.kept {c : Call} (h : c.Gated locate table t) :
    LockedKept locate table t (c.apply locate t) := by
  intro l hl hocc
  cases c with
  | rename src dst =>
    by_cases hsd : locate src = locate dst
    · simp [Call.apply, hsd, rename_self]
    · obtain ⟨hsrc, hdst⟩ := h hsd
      have hd : l ≠ locate dst := fun he => hocc (he ▸ hdst (he ▸ hl))
      have hs : l ≠ locate src := fun he => hsrc (he ▸ hl)
      exact rename_other t hd hs
  | copy src dst =>
    have hd : l ≠ locate dst := fun he => hocc (he ▸ h (he ▸ hl))
    unfold Call.apply
    dsimp only
    cases readContent locate (maxSymlinks + 1) t (locate src) with
    | some c => simp [put, hd]
    | none => rfl
  | remove path =>
    have hp : l ≠ locate path := fun he => h (he ▸ hl)
    simp [Call.apply, FileTree.remove, hp]

/-- **Gated calls leave every file that is at a locked location.** -/
theorem lockedKept_of_allGated (cs : List Call) (h : AllGated locate table cs t) :
    LockedKept locate table t (cs.foldl (Call.apply locate) t) := by
  induction cs generalizing t with
  | nil => exact fun _ _ _ => rfl
  | cons c cs ih => exact h.1.kept.trans (ih h.2)

end Calls

/-! ### One item -/

section Item

variable (locate : Str → Str)

/-- The item's source stays where it is: there is none, the destination is the same location, or the
operating system refuses the rename and one of the steps that stand in for it. -/
def SourceStays (t : Files) (src dst : Str) (x : SysFaults) : Prop :=
  t (locate src) = none ∨ locate src = locate dst ∨
    (x.rename ≠ none ∧
      (readContent locate (maxSymlinks + 1) t (locate src) = none ∨ x.copy ≠ none ∨
        t (locate dst) ≠ none ∨ x.remove ≠ none))

/-- Nothing is replaced at the item's destination: nothing is there, there is no source, the source
is the same location, or the operating system refuses the rename. -/
def NothingReplaced (t : Files) (src dst : Str) (x : SysFaults) : Prop :=
  t (locate dst) = none ∨ t (locate src) = none ∨ locate src = locate dst ∨ x.rename ≠ none

/-- A locked source stays, and at a locked destination nothing is replaced. -/
structure ItemUnlocked (table : List RootRow) (t : Files) (src dst : Str) (x : SysFaults) :
    Prop where
  source : LockedAt locate table (locate src) → SourceStays locate t src dst x
  target : LockedAt locate table (locate dst) → NothingReplaced locate t src dst x

variable {locate} {table : List RootRow} {x : SysFaults} {t : Files} {src dst : Str}

theorem copyFile_isOk_iff {fault : Option Str} :
    (∃ u, copyFile locate fault t src dst = .ok u) ↔
      readContent locate (maxSymlinks + 1) t (locate src) ≠ none ∧ fault = none ∧
        t (locate dst) = none := by
  unfold copyFile
  cases readContent locate (maxSymlinks + 1) t (locate src) with
  | none => simp
  | some c =>
    cases fault with
    | some msg => simp
    | none => cases t (locate dst) <;> simp

theorem renameFile_isOk_iff {fault : Option Str} :
    (∃ u, renameFile locate fault t src dst = .ok u) ↔ fault = none ∧ t (locate src) ≠ none := by
  unfold renameFile
  cases fault with
  | some msg => simp
  | none => cases t (locate src) <;> simp

/-- A source that can be read is there. -/
theorem occupied_of_readContent (h : readContent locate (maxSymlinks + 1) t (locate src) ≠ none) :
    t (locate src) ≠ none := by
  intro hnone
  unfold readContent at h
  rw [hnone] at h
  exact h rfl

/-- **An item's calls are gated exactly if it is unlocked.** -/
theorem relocateCalls_gated_iff :
    AllGated locate table (relocateCalls locate x t src dst) t ↔
      ItemUnlocked locate table t src dst x := by
  have hren : (∃ u, renameFile locate x.rename t src dst = .ok u) ↔ _ := renameFile_isOk_iff
  have hcopy : (∃ u, copyFile locate x.copy t src dst = .ok u) ↔ _ := copyFile_isOk_iff
  unfold relocateCalls
  cases hr : renameFile locate x.rename t src dst with
  | ok u =>
    obtain ⟨hx, hsrc⟩ := hren.mp ⟨u, hr⟩
    simp only [AllGated, Call.Gated, and_true]
    constructor
    · intro h
      by_cases hsd : locate src = locate dst
      · exact ⟨fun _ => Or.inr (Or.inl hsd), fun _ => Or.inr (Or.inr (Or.inl hsd))⟩
      · exact ⟨fun hl => absurd hl (h hsd).1, fun hl => Or.inl ((h hsd).2 hl)⟩
    · intro h hsd
      refine ⟨fun hl => ?_, fun hl => ?_⟩
      · rcases h.source hl with hno | hsame | hfault
        · exact hsrc hno
        · exact hsd hsame
        · exact hfault.1 hx
      · rcases h.target hl with hfree | hno | hsame | hfault
        · exact hfree
        · exact absurd hno hsrc
        · exact absurd hsame hsd
        · exact absurd hx hfault
  | error msg =>
    have hnren : x.rename = none → t (locate src) = none := by
      intro hx
      by_contra hsrc
      obtain ⟨u, hu⟩ := hren.mpr ⟨hx, hsrc⟩
      rw [hu] at hr
      cases hr
    have htarget : NothingReplaced locate t src dst x := by
      by_cases hx : x.rename = none
      · exact Or.inr (Or.inl (hnren hx))
      · exact Or.inr (Or.inr (Or.inr hx))
    dsimp only
    cases hc : copyFile locate x.copy t src dst with
    | error msg =>
      refine iff_of_true trivial ⟨fun _ => ?_, fun _ => htarget⟩
      by_cases hx : x.rename = none
      · exact Or.inl (hnren hx)
      · refine Or.inr (Or.inr ⟨hx, ?_⟩)
        by_contra hno
        simp only [not_or, not_not] at hno
        obtain ⟨u, hu⟩ := hcopy.mpr ⟨hno.1, hno.2.1, hno.2.2.1⟩
        rw [hu] at hc
        cases hc
    | ok u =>
      obtain ⟨hread, hxc, hfree⟩ := hcopy.mp ⟨u, hc⟩
      have hsrc := occupied_of_readContent hread
      have hsd : locate src ≠ locate dst := fun he => hsrc (he ▸ hfree)
      cases hxr : x.remove with
      | some msg =>
        refine iff_of_true ⟨fun _ => hfree, trivial⟩ ⟨fun _ => ?_, fun _ => htarget⟩
        refine Or.inr (Or.inr ⟨fun hx => hsrc (hnren hx), ?_⟩)
        exact Or.inr (Or.inr (Or.inr (by simp [hxr])))
      | none =>
        simp only [AllGated, Call.Gated, and_true]
        constructor
        · intro h
          exact ⟨fun hl => absurd hl h.2, fun _ => htarget⟩
        · intro h
          refine ⟨fun _ => hfree, fun hl => ?_⟩
          rcases h.source hl with hno | hsame | ⟨_, hno | hno | hno | hno⟩
          · exact hsrc hno
          · exact hsd hsame
          · exact hread hno
          · exact hno hxc
          · exact hno hfree
          · exact hno hxr

end Item

/-! ### Every item of a run -/

section Server

variable [Host] (locate : Str → Str) (cfg : ActionConfig) (now : Micros) (op : FsOp)

/-- Each item is unlocked on the tree it meets. -/
def ItemsUnlocked (table : List RootRow) (base : Str) :
    List (FrameRef × SysFaults) → Files → Prop
  | [], _ => True
  | (f, x) :: rest, t =>
    ItemUnlocked locate table t f.absPath (itemDst base f) x ∧
      ItemsUnlocked table base rest (relocate locate x t f.absPath (itemDst base f)).2

omit [Host] in
theorem runCalls_gated_iff (table : List RootRow) (base : Str)
    (frames : List (FrameRef × SysFaults)) (t : Files) :
    AllGated locate table (runCalls locate base frames t) t ↔
      ItemsUnlocked locate table base frames t := by
  induction frames generalizing t with
  | nil => simp [runCalls, AllGated, ItemsUnlocked]
  | cons fx rest ih =>
    obtain ⟨f, x⟩ := fx
    unfold runCalls ItemsUnlocked
    rw [allGated_append, foldl_relocateCalls, relocateCalls_gated_iff, ih]

variable {op}

/-- The tree after the loop is that after the calls of the items it begins. -/
theorem fsopLoop_tree (hop : op.destructive = true) (base : Str) (jobId : ℕ)
    (frames : List (FrameRef × SysFaults)) (jr : JobResult) (w : World) (rs : List Reply) :
    (fsopLoop locate now op base jobId frames jr w rs).store.tree
      = (runCalls locate base (begun locate now op base jobId frames w rs) w.tree).foldl
          (Call.apply locate) w.tree := by
  induction frames generalizing jr w rs with
  | nil => rfl
  | cons fx rest ih =>
    obtain ⟨f, x⟩ := fx
    have htree := fsopItem_tree locate now op base jobId f x w rs
    rw [perform_of_destructive hop] at htree
    unfold begun runCalls
    rw [List.foldl_append, foldl_relocateCalls]
    show ((fsopItem locate now op base jobId f x >>= fun it =>
      fsopLoop locate now op base jobId rest (jr.add it)) w rs).store.tree = _
    rw [bind_apply, Done.andThen]
    rcases hd : fsopItem locate now op base jobId f x w rs with ⟨_ | it, v, rs'⟩
    · rw [hd] at htree
      exact htree
    · rw [hd] at htree
      dsimp only
      rw [ih, show v.tree = _ from htree]
      rfl

/-! ### The flag -/

/-- The calls of a run over `begun` from the tree `t`, and the tree `u` it leaves. -/
structure FlagKept (table : List RootRow) (base : Str) (begun : List (FrameRef × SysFaults))
    (t u : Files) : Prop where
  calls : AllGated locate table (runCalls locate base begun t) t
  kept : LockedKept locate table t u

variable (op) in
/-- The directory that the run's items go to. -/
def runBase (targetDir : Str) (w : World) : Str := destBase cfg op targetDir w.nextJob

/-- The tree after a real run is that after the calls of the items it begins. -/
theorem fsop_tree (hop : op.destructive = true) (frames : List (FrameRef × SysFaults))
    (targetDir : Str) (w : World) (rs : List Reply) :
    (fsop locate cfg now op.text frames targetDir false w rs).store.tree
      = (runCalls locate (runBase cfg op targetDir w)
          (fsopBegun locate cfg now op frames targetDir w rs) w.tree).foldl
          (Call.apply locate) w.tree := by
  unfold fsopBegun runBase
  by_cases hr : (nextReply rs).1 = .ok
  · have hloop := fsopLoop_tree locate now hop (destBase cfg op targetDir w.nextJob) w.nextJob frames
      { jobId := w.nextJob, type := op.text, dryRun := false, total := frames.length,
        root := destBase cfg op targetDir w.nextJob } (started frames.length w) rs.tail
    rw [fsop_of_ok locate cfg now frames targetDir hr, createJob_of_ok hr, bind_apply, Done.andThen]
    dsimp only
    rcases hd : fsopLoop locate now op (destBase cfg op targetDir w.nextJob) w.nextJob frames
      { jobId := w.nextJob, type := op.text, dryRun := false, total := frames.length,
        root := destBase cfg op targetDir w.nextJob } (started frames.length w) rs.tail
      with ⟨_ | jr, v, rs'⟩
    · rw [hd] at hloop
      exact hloop
    · rw [hd] at hloop
      have hfin : SameTree v ((finishJob w.nextJob jr >>= fun _ => pure jr : Run JobResult) v rs').store :=
        within_bind sameTree_trans (finishJob_sameTree w.nextJob jr)
          (fun _ => within_pure sameTree_refl _) v rs'
      exact Eq.trans hfin hloop
  · obtain ⟨e, he⟩ := createJob_of_not_ok (n := frames.length) (w := w) hr
    rw [fsop_of_not_ok locate cfg now frames targetDir hr, he]
    split <;> rfl

/-- **The writable flag, exactly.**  In a real move or trash no file at a location under a root with
`writable = 0` is renamed away, removed or replaced, and each such file is there at the end, exactly
if every item that the run begins is unlocked on the tree it meets. -/
theorem fsop_gated_iff (hop : op.destructive = true) (table : List RootRow)
    (frames : List (FrameRef × SysFaults)) (targetDir : Str) (w : World) (rs : List Reply) :
    FlagKept locate table (runBase cfg op targetDir w)
        (fsopBegun locate cfg now op frames targetDir (w.registered table) rs) w.tree
        (fsop locate cfg now op.text frames targetDir false (w.registered table) rs).store.tree ↔
      ItemsUnlocked locate table (runBase cfg op targetDir w)
        (fsopBegun locate cfg now op frames targetDir (w.registered table) rs) w.tree := by
  rw [← runCalls_gated_iff]
  refine ⟨fun h => h.calls, fun h => ⟨h, ?_⟩⟩
  rw [fsop_tree locate cfg now hop frames targetDir (w.registered table) rs]
  exact lockedKept_of_allGated _ h

end Server

/-! ### A root that is not writable -/

section ReadOnlyRoot

attribute [local instance] plainHost

/-- The root `/r` is not writable. -/
def readOnlyRoot : List RootRow := [⟨1, "/r".toList, false⟩]

/-- A file outside it can be moved. -/
theorem fsop_gated_outside :
    let tree : Files := fun l => if l = "/q/x".toList then some (.file "1".toList) else none
    let items := [({ frameA with absPath := "/q/x".toList }, {})]
    let w := { twoNights with tree := tree }
    FlagKept id readOnlyRoot (runBase plainConfig .move "/out".toList w)
      (fsopBegun id plainConfig 0 .move items "/out".toList (w.registered readOnlyRoot) []) w.tree
      (fsop id plainConfig 0 "move".toList items "/out".toList false (w.registered readOnlyRoot)
        []).store.tree := by
  refine (@fsop_gated_iff _ id plainConfig 0 .move rfl readOnlyRoot _ _ _ []).mpr ?_
  exact ⟨⟨fun hl => absurd hl (by decide), fun hl => absurd hl (by decide)⟩, trivial⟩

/-- A file of the root is moved away all the same. -/
theorem fsop_moves_from_readOnlyRoot :
    ¬ FlagKept id readOnlyRoot (runBase plainConfig .move "/out".toList twoNights)
      (fsopBegun id plainConfig 0 .move [(frameA, {})] "/out".toList
        (twoNights.registered readOnlyRoot) []) twoNights.tree
      (fsop id plainConfig 0 "move".toList [(frameA, {})] "/out".toList false
        (twoNights.registered readOnlyRoot) []).store.tree := by
  intro h
  have hkept := h.kept "/r/a/x".toList (by decide) (by decide)
  exact absurd hkept (by decide)

end ReadOnlyRoot

end StarBase.Action
