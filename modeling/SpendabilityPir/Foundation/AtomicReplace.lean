import Mathlib.Data.List.Basic
import SpendabilityPir.Foundation.Transition

/-!
# Replacing a file under crashes

A file is replaced by writing a temporary file, syncing it and renaming it over the old
one.  A power loss brings back any directory since the last one and leaves anything in
the files that were not synced.  What a reader opens is always a whole payload, so the
file behaves like one that is replaced in a single step.
-/

namespace SpendabilityPir
namespace Foundation

/-- What readers see of a file, and whether all of it is on disk. -/
structure StoredFile where
  bytes : List UInt8
  synced : Bool

/-- Files by number, the directory, and the directories a power loss may bring back. -/
structure FileSystem (N : Type) where
  directory : N -> Option Nat
  older : List (N -> Option Nat)
  files : Nat -> StoredFile
  next : Nat

namespace FileSystem

variable {N : Type}

def directories (fs : FileSystem N) : List (N -> Option Nat) := fs.directory :: fs.older

def setFile (fs : FileSystem N) (file : Nat) (contents : StoredFile) : FileSystem N :=
  { fs with files := fun i => if i = file then contents else fs.files i }

def setDirectory (fs : FileSystem N) (directory : N -> Option Nat) : FileSystem N :=
  { fs with directory := directory, older := fs.directories }

/-- Open a file for writing: an old one is emptied, a new one gets the next number. -/
def create [DecidableEq N] (fs : FileSystem N) (name : N) : FileSystem N × Nat :=
  match fs.directory name with
  | some file => (fs.setFile file { bytes := [], synced := false }, file)
  | none =>
      ({ fs.setDirectory (fun n => if n = name then some fs.next else fs.directory n) with
          files := fun i =>
            if i = fs.next then { bytes := [], synced := false } else fs.files i
          next := fs.next + 1 },
        fs.next)

def append (fs : FileSystem N) (file : Nat) (bytes : List UInt8) : FileSystem N :=
  fs.setFile file { bytes := (fs.files file).bytes ++ bytes, synced := false }

def sync (fs : FileSystem N) (file : Nat) : FileSystem N :=
  fs.setFile file { bytes := (fs.files file).bytes, synced := true }

def rename [DecidableEq N] (fs : FileSystem N) (source target : N) : FileSystem N :=
  fs.setDirectory (fun n =>
    if n = target then fs.directory source
    else if n = source then none
    else fs.directory n)

def readIn (fs : FileSystem N) (directory : N -> Option Nat) (name : N) :
    Option (List UInt8) :=
  (directory name).map (fun file => (fs.files file).bytes)

def read (fs : FileSystem N) (name : N) : Option (List UInt8) := fs.readIn fs.directory name

def empty : FileSystem N :=
  { directory := fun _ => none
    older := []
    files := fun _ => { bytes := [], synced := true }
    next := 0 }

/-- After a power loss some directory is back, synced files are whole, and the other files
hold anything. -/
structure PowerLoss (fs fs' : FileSystem N) : Prop where
  directory : fs'.directory ∈ fs.directories
  older : fs'.older = []
  whole : forall file, (fs.files file).synced = true -> fs'.files file = fs.files file
  onDisk : forall file, (fs'.files file).synced = true
  next : fs'.next = fs.next

end FileSystem

/-!
## The writer
-/

inductive ReplaceStage where
  | idle
  | writing (file : Nat) (rest : List UInt8)
  | synced (file : Nat)

structure Replacing (N : Type) where
  fs : FileSystem N
  stage : ReplaceStage

/-- What the writer does, or what happens to it: it gives up when a call fails or when its
process dies. -/
inductive ReplaceLabel where
  | start (payload : List UInt8)
  | write (count : Nat)
  | sync
  | rename
  | giveUp
  | powerLoss

section Writer

variable {N : Type} [DecidableEq N] (temporary target : N)

inductive ReplaceStep (s : Replacing N) : ReplaceLabel -> Replacing N -> Prop where
  | start {payload : List UInt8} :
      s.stage = .idle ->
      ReplaceStep s (.start payload)
        { fs := (s.fs.create temporary).1
          stage := .writing (s.fs.create temporary).2 payload }
  | write {file count : Nat} {rest : List UInt8} :
      s.stage = .writing file rest ->
      ReplaceStep s (.write count)
        { fs := s.fs.append file (rest.take count)
          stage := .writing file (rest.drop count) }
  | sync {file : Nat} :
      s.stage = .writing file [] ->
      ReplaceStep s .sync { fs := s.fs.sync file, stage := .synced file }
  | rename {file : Nat} :
      s.stage = .synced file ->
      ReplaceStep s .rename { fs := s.fs.rename temporary target, stage := .idle }
  | giveUp : ReplaceStep s .giveUp { fs := s.fs, stage := .idle }
  | powerLoss {fs : FileSystem N} :
      s.fs.PowerLoss fs -> ReplaceStep s .powerLoss { fs := fs, stage := .idle }

end Writer

/-!
## A file replaced in one step
-/

/-- What readers see, what a power loss may bring back, and what is being written. -/
structure AtomicFile where
  current : Option (List UInt8)
  recoverable : List (Option (List UInt8))
  pending : Option (List UInt8)

inductive AtomicStep (a : AtomicFile) : ReplaceLabel -> AtomicFile -> Prop where
  | start {payload : List UInt8} :
      AtomicStep a (.start payload) { a with pending := some payload }
  | write {count : Nat} : AtomicStep a (.write count) a
  | sync : AtomicStep a .sync a
  | rename {payload : List UInt8} :
      a.pending = some payload ->
      AtomicStep a .rename
        { current := some payload
          recoverable := some payload :: a.recoverable
          pending := none }
  | giveUp : AtomicStep a .giveUp { a with pending := none }
  | powerLoss {version : Option (List UInt8)} :
      version ∈ a.recoverable ->
      AtomicStep a .powerLoss
        { current := version, recoverable := [version], pending := none }

/-!
## The refinement
-/

section Recovery

variable {N : Type} (temporary target : N)

/-- The file being written is the temporary one, and holds what was written so far. -/
def WritesPending (s : Replacing N) (pending : Option (List UInt8)) : Prop :=
  match s.stage with
  | .idle => True
  | .writing file rest => s.fs.directory temporary = some file ∧
      pending = some ((s.fs.files file).bytes ++ rest)
  | .synced file => s.fs.directory temporary = some file ∧
      pending = some (s.fs.files file).bytes ∧ (s.fs.files file).synced = true

/-- A directory that may come back has a whole target, which is not the file that is
written. -/
structure Recovers (fs : FileSystem N) (recoverable : List (Option (List UInt8)))
    (directory : N -> Option Nat) : Prop where
  version : fs.readIn directory target ∈ recoverable
  bound : forall name file, directory name = some file -> file < fs.next
  whole : forall file, directory target = some file -> (fs.files file).synced = true
  apart : forall file, directory target = some file -> directory temporary ≠ some file
  notWritten : forall file, directory target = some file ->
    fs.directory temporary ≠ some file

/-- The file system stands for a file that is replaced in one step. -/
structure StandsFor (s : Replacing N) (a : AtomicFile) : Prop where
  current : s.fs.read target = a.current
  recovers : forall directory, directory ∈ s.fs.directories ->
    Recovers temporary target s.fs a.recoverable directory
  writes : WritesPending temporary s a.pending

end Recovery

section Refinement

variable {N : Type} {temporary target : N}

theorem mem_directories (fs : FileSystem N) : fs.directory ∈ fs.directories :=
  List.mem_cons_self

theorem readIn_congr {fs fs' : FileSystem N} {directory : N -> Option Nat} {name : N}
    (h : forall file, directory name = some file -> fs'.files file = fs.files file) :
    fs'.readIn directory name = fs.readIn directory name := by
  cases hfile : directory name with
  | none => simp [FileSystem.readIn, hfile]
  | some file => simp [FileSystem.readIn, hfile, h file hfile]

theorem Recovers.congr {fs fs' : FileSystem N} {recoverable : List (Option (List UInt8))}
    {directory : N -> Option Nat}
    (h : Recovers temporary target fs recoverable directory)
    (hfiles : forall file, directory target = some file ->
      fs'.files file = fs.files file)
    (hnext : fs.next ≤ fs'.next)
    (hwritten : forall file, directory target = some file ->
      fs'.directory temporary ≠ some file) :
    Recovers temporary target fs' recoverable directory where
  version := by
    rw [readIn_congr hfiles]
    exact h.version
  bound name file hfile := Nat.lt_of_lt_of_le (h.bound name file hfile) hnext
  whole file hfile := by
    rw [hfiles file hfile]
    exact h.whole file hfile
  apart := h.apart
  notWritten := hwritten

theorem StandsFor.setFile {s : Replacing N} {a : AtomicFile}
    (h : StandsFor temporary target s a) {file : Nat}
    (hfile : s.fs.directory temporary = some file) (contents : StoredFile)
    {stage : ReplaceStage} {pending : Option (List UInt8)}
    (hwrites : WritesPending temporary { fs := s.fs.setFile file contents, stage := stage }
      pending) :
    StandsFor temporary target { fs := s.fs.setFile file contents, stage := stage }
      { a with pending := pending } := by
  have hsame : forall directory, directory ∈ s.fs.directories -> forall other,
      directory target = some other ->
        (s.fs.setFile file contents).files other = s.fs.files other := by
    intro directory hmem other htarget
    apply if_neg
    intro heq
    rw [heq] at htarget
    exact (h.recovers directory hmem).notWritten file htarget hfile
  constructor
  · rw [← h.current]
    exact readIn_congr (hsame _ (mem_directories s.fs))
  · intro directory hmem
    have hold := h.recovers directory hmem
    exact hold.congr (hsame directory hmem) (Nat.le_refl _) hold.notWritten
  · exact hwrites

theorem StandsFor.giveUp {s : Replacing N} {a : AtomicFile}
    (h : StandsFor temporary target s a) :
    StandsFor temporary target { fs := s.fs, stage := .idle } { a with pending := none } where
  current := h.current
  recovers := h.recovers
  writes := trivial

theorem StandsFor.powerLoss {s : Replacing N} {a : AtomicFile} {fs : FileSystem N}
    (h : StandsFor temporary target s a) (hloss : s.fs.PowerLoss fs) :
    s.fs.readIn fs.directory target ∈ a.recoverable ∧
    StandsFor temporary target { fs := fs, stage := .idle }
      { current := s.fs.readIn fs.directory target
        recoverable := [s.fs.readIn fs.directory target]
        pending := none } := by
  have hold := h.recovers fs.directory hloss.directory
  have hread : fs.readIn fs.directory target = s.fs.readIn fs.directory target :=
    readIn_congr (fun file hfile => hloss.whole file (hold.whole file hfile))
  refine ⟨hold.version, hread, ?_, trivial⟩
  intro directory hmem
  rw [FileSystem.directories, hloss.older, List.mem_singleton] at hmem
  rw [hmem]
  constructor
  · rw [hread]
    exact List.mem_singleton.mpr rfl
  · rw [hloss.next]
    exact hold.bound
  · exact fun file _ => hloss.onDisk file
  · exact hold.apart
  · exact hold.apart

variable [DecidableEq N]

theorem StandsFor.create {s : Replacing N} {a : AtomicFile} (hne : temporary ≠ target)
    (h : StandsFor temporary target s a) (payload : List UInt8) :
    StandsFor temporary target
      { fs := (s.fs.create temporary).1, stage := .writing (s.fs.create temporary).2 payload }
      { a with pending := some payload } := by
  cases hfile : s.fs.directory temporary with
  | some file =>
      have hcreate : s.fs.create temporary =
          (s.fs.setFile file { bytes := [], synced := false }, file) := by
        simp only [FileSystem.create, hfile]
      rw [hcreate]
      apply h.setFile hfile
      simp [WritesPending, FileSystem.setFile, hfile]
  | none =>
      -- the file is new, so no directory has it as its target
      let directory : N -> Option Nat :=
        fun n => if n = temporary then some s.fs.next else s.fs.directory n
      let fs : FileSystem N :=
        { s.fs.setDirectory directory with
          files := fun i =>
            if i = s.fs.next then { bytes := [], synced := false } else s.fs.files i
          next := s.fs.next + 1 }
      have hcreate : s.fs.create temporary = (fs, s.fs.next) := by
        simp only [FileSystem.create, hfile, fs, directory]
      have htemporary : directory temporary = some s.fs.next := if_pos rfl
      have htarget : directory target = s.fs.directory target := if_neg (Ne.symm hne)
      have hfresh : forall other, other ∈ s.fs.directories -> forall file,
          other target = some file -> file ≠ s.fs.next := by
        intro other hmem file hother heq
        have hlt := (h.recovers other hmem).bound target file hother
        lia
      have hold : forall other, other ∈ s.fs.directories ->
          Recovers temporary target fs a.recoverable other := by
        intro other hmem
        apply (h.recovers other hmem).congr
        · exact fun file hother => if_neg (hfresh other hmem file hother)
        · exact Nat.le_succ _
        · intro file hother hnew
          change directory temporary = some file at hnew
          rw [htemporary] at hnew
          exact hfresh other hmem file hother (Option.some.inj hnew).symm
      have hread : fs.readIn directory target = s.fs.read target := by
        rw [FileSystem.readIn, htarget]
        exact readIn_congr
          (fun file hother => if_neg (hfresh _ (mem_directories s.fs) file hother))
      rw [hcreate]
      constructor
      · exact hread.trans h.current
      · intro other hmem
        rcases List.mem_cons.mp hmem with hnew | hmem
        · rw [hnew]
          have hcurrent := hold _ (mem_directories s.fs)
          constructor
          · exact hread ▸ (h.recovers _ (mem_directories s.fs)).version
          · intro name file hname
            change directory name = some file at hname
            change file < s.fs.next + 1
            by_cases htemp : name = temporary
            · rw [htemp, htemporary] at hname
              cases hname
              exact Nat.lt_succ_self _
            · rw [show directory name = s.fs.directory name from if_neg htemp] at hname
              exact Nat.lt_succ_of_lt
                ((h.recovers _ (mem_directories s.fs)).bound name file hname)
          · exact fun file hother => hcurrent.whole file (htarget ▸ hother)
          · exact fun file hother => hcurrent.notWritten file (htarget ▸ hother)
          · exact fun file hother => hcurrent.notWritten file (htarget ▸ hother)
        · exact hold other hmem
      · simp [WritesPending, fs, htemporary, FileSystem.setDirectory]

theorem StandsFor.rename {s : Replacing N} {a : AtomicFile} (hne : temporary ≠ target)
    (h : StandsFor temporary target s a) {file : Nat} (hstage : s.stage = .synced file) :
    exists payload, a.pending = some payload ∧
      StandsFor temporary target
        { fs := s.fs.rename temporary target, stage := .idle }
        { current := some payload
          recoverable := some payload :: a.recoverable
          pending := none } := by
  have hwrites := h.writes
  simp only [WritesPending, hstage] at hwrites
  rcases hwrites with ⟨hfile, hpending, hsynced⟩
  let fs := s.fs.rename temporary target
  have htarget : fs.directory target = some file := by
    simp [fs, FileSystem.rename, FileSystem.setDirectory, hfile]
  have htemporary : fs.directory temporary = none := by
    simp [fs, FileSystem.rename, FileSystem.setDirectory, hne]
  have hread : fs.readIn fs.directory target = some (s.fs.files file).bytes := by
    rw [FileSystem.readIn, htarget]
    rfl
  refine ⟨(s.fs.files file).bytes, hpending, hread, ?_, trivial⟩
  intro directory hmem
  rcases List.mem_cons.mp hmem with hnew | hmem
  · rw [hnew]
    constructor
    · exact hread ▸ List.mem_cons_self
    · intro name other hname
      have hcurrent := h.recovers _ (mem_directories s.fs)
      by_cases htgt : name = target
      · rw [htgt, htarget] at hname
        cases hname
        exact hcurrent.bound temporary file hfile
      · by_cases htemp : name = temporary
        · rw [htemp, htemporary] at hname
          cases hname
        · have hsame : fs.directory name = s.fs.directory name := by
            simp [fs, FileSystem.rename, FileSystem.setDirectory, htgt, htemp]
          rw [hsame] at hname
          exact hcurrent.bound name other hname
    · intro other hother
      rw [htarget] at hother
      cases hother
      exact hsynced
    · intro other _
      rw [htemporary]
      simp
    · intro other _
      rw [htemporary]
      simp
  · have hold := h.recovers directory hmem
    have hkept : Recovers temporary target fs a.recoverable directory := by
      apply hold.congr
      · exact fun _ _ => rfl
      · exact Nat.le_refl _
      · intro other _
        rw [htemporary]
        simp
    exact ⟨List.mem_cons_of_mem _ hkept.version, hkept.bound, hkept.whole, hkept.apart,
      hkept.notWritten⟩

/-- Each step of the writer is a step of the file that is replaced at once. -/
theorem standsFor_step (hne : temporary ≠ target) {s s' : Replacing N} {a : AtomicFile}
    {label : ReplaceLabel} (h : StandsFor temporary target s a)
    (hstep : ReplaceStep temporary target s label s') :
    exists b, AtomicStep a label b ∧ StandsFor temporary target s' b := by
  cases hstep with
  | start _ => exact ⟨_, .start, h.create hne _⟩
  | write hstage =>
      refine ⟨a, .write, ?_⟩
      have hwrites := h.writes
      simp only [WritesPending, hstage] at hwrites
      apply h.setFile hwrites.left
      simp [WritesPending, FileSystem.setFile, hwrites]
  | sync hstage =>
      refine ⟨a, .sync, ?_⟩
      have hwrites := h.writes
      simp only [WritesPending, hstage] at hwrites
      apply h.setFile hwrites.left
      simp [WritesPending, FileSystem.setFile, hwrites]
  | rename hstage =>
      rcases h.rename hne hstage with ⟨payload, hpending, hstands⟩
      exact ⟨_, .rename hpending, hstands⟩
  | giveUp => exact ⟨_, .giveUp, h.giveUp⟩
  | powerLoss hloss =>
      rcases h.powerLoss hloss with ⟨hmem, hstands⟩
      exact ⟨_, .powerLoss hmem, hstands⟩

theorem standsFor_run (hne : temporary ≠ target) {s s' : Replacing N} {a : AtomicFile}
    {labels : List ReplaceLabel} (h : StandsFor temporary target s a)
    (hrun : Run (ReplaceStep temporary target) s labels s') :
    exists b, Run AtomicStep a labels b ∧ StandsFor temporary target s' b := by
  refine hrun.refines ?_ h
  intro _ _ _ _ hstands hstep
  exact standsFor_step hne hstands hstep

theorem pending_of_run {a b : AtomicFile} {payload : List UInt8} {labels : List ReplaceLabel}
    (hrun : Run AtomicStep a labels b) (hpending : a.pending = some payload)
    (hlabels : forall label, label ∈ labels ->
      label = .sync ∨ exists count, label = .write count) : b.pending = some payload := by
  apply hrun.invariant_of_forall _ hlabels hpending
  intro s label t hkept hlabel hstep
  rcases hlabel with rfl | ⟨count, rfl⟩
  · cases hstep
    exact hkept
  · cases hstep
    exact hkept

theorem exists_save {s : Replacing N} (hidle : s.stage = .idle) (payload : List UInt8) :
    exists first written synced fs,
      ReplaceStep temporary target s (.start payload) first ∧
      ReplaceStep temporary target first (.write payload.length) written ∧
      ReplaceStep temporary target written .sync synced ∧
      ReplaceStep temporary target synced .rename { fs := fs, stage := .idle } := by
  have hdone : payload.drop payload.length = [] := List.drop_length
  exact ⟨_, _, _, _, .start hidle, .write rfl,
    .sync (congrArg (ReplaceStage.writing _) hdone), .rename rfl⟩

theorem read_of_save (hne : temporary ≠ target) {s first last s' : Replacing N}
    {a : AtomicFile} (h : StandsFor temporary target s a) {payload : List UInt8}
    {labels : List ReplaceLabel}
    (hstart : ReplaceStep temporary target s (.start payload) first)
    (hrun : Run (ReplaceStep temporary target) first labels last)
    (hlabels : forall label, label ∈ labels ->
      label = .sync ∨ exists count, label = .write count)
    (hrename : ReplaceStep temporary target last .rename s') :
    s'.fs.read target = some payload := by
  rcases standsFor_step hne h hstart with ⟨b, hb, hfirst⟩
  rcases standsFor_run hne hfirst hrun with ⟨c, hc, hlast⟩
  rcases standsFor_step hne hlast hrename with ⟨d, hd, hstands⟩
  cases hb
  have hpending := pending_of_run hc rfl hlabels
  rw [hstands.current]
  cases hd with
  | rename hrenamed => exact hrenamed.symm.trans hpending

end Refinement

/-!
## What the target holds
-/

namespace AtomicFile

/-- A file that is not there and not being written. -/
def missing : AtomicFile := { current := none, recoverable := [none], pending := none }

structure Offers (P : List UInt8 -> Prop) (a : AtomicFile) : Prop where
  current : forall payload, a.current = some payload -> P payload
  recoverable : forall payload, some payload ∈ a.recoverable -> P payload
  pending : forall payload, a.pending = some payload -> P payload

theorem offers_missing (P : List UInt8 -> Prop) : Offers P missing := by
  constructor <;> simp [missing]

theorem Offers.start {P : List UInt8 -> Prop} {a : AtomicFile} {payload : List UInt8}
    (h : Offers P a) (hpayload : P payload) : Offers P { a with pending := some payload } := by
  refine ⟨h.current, h.recoverable, ?_⟩
  intro other hother
  cases hother
  exact hpayload

theorem Offers.rename {P : List UInt8 -> Prop} {a : AtomicFile} {payload : List UInt8}
    (h : Offers P a) (hpending : a.pending = some payload) :
    Offers P
      { current := some payload
        recoverable := some payload :: a.recoverable
        pending := none } := by
  have hpayload := h.pending payload hpending
  constructor
  · intro other hother
    cases hother
    exact hpayload
  · intro other hmem
    rcases List.mem_cons.mp hmem with heq | hmem
    · cases heq
      exact hpayload
    · exact h.recoverable other hmem
  · intro other hother
    cases hother

theorem Offers.giveUp {P : List UInt8 -> Prop} {a : AtomicFile} (h : Offers P a) :
    Offers P { a with pending := none } := by
  refine ⟨h.current, h.recoverable, ?_⟩
  intro other hother
  cases hother

theorem Offers.powerLoss {P : List UInt8 -> Prop} {a : AtomicFile}
    {version : Option (List UInt8)} (h : Offers P a) (hmem : version ∈ a.recoverable) :
    Offers P { current := version, recoverable := [version], pending := none } := by
  constructor
  · intro other hother
    change version = some other at hother
    rw [hother] at hmem
    exact h.recoverable other hmem
  · intro other hother
    rw [← List.mem_singleton.mp hother] at hmem
    exact h.recoverable other hmem
  · intro other hother
    cases hother

/-- What is said of the payloads that are started is true of what is read. -/
theorem offers_step {P : List UInt8 -> Prop} {a b : AtomicFile} {label : ReplaceLabel}
    (h : Offers P a) (hlabel : forall payload, label = .start payload -> P payload)
    (hstep : AtomicStep a label b) : Offers P b := by
  cases hstep with
  | start => exact h.start (hlabel _ rfl)
  | write => exact h
  | sync => exact h
  | rename hpending => exact h.rename hpending
  | giveUp => exact h.giveUp
  | powerLoss hmem => exact h.powerLoss hmem

theorem no_payload_of_writes {label : ReplaceLabel}
    (hlabel : label = .sync ∨ exists count, label = .write count) (payload : List UInt8) :
    label ≠ .start payload := by
  rcases hlabel with hsync | ⟨count, hwrite⟩
  · rw [hsync]
    exact fun hfalse => by cases hfalse
  · rw [hwrite]
    exact fun hfalse => by cases hfalse

end AtomicFile

theorem StandsFor.read_of_offers {N : Type} {temporary target : N} {s : Replacing N}
    {a : AtomicFile} {P : List UInt8 -> Prop} (h : StandsFor temporary target s a)
    (hoffers : a.Offers P) :
    s.fs.read target = none ∨
      exists payload, s.fs.read target = some payload ∧ P payload := by
  cases hread : s.fs.read target with
  | none => exact Or.inl rfl
  | some payload => exact Or.inr ⟨payload, rfl, hoffers.current payload (h.current ▸ hread)⟩

theorem standsFor_empty {N : Type} (temporary target : N) :
    StandsFor temporary target { fs := FileSystem.empty, stage := .idle }
      AtomicFile.missing := by
  constructor
  · rfl
  · intro directory hmem
    rw [List.mem_singleton.mp hmem]
    constructor <;> simp [FileSystem.readIn, FileSystem.empty, AtomicFile.missing]
  · trivial

end Foundation
end SpendabilityPir
