import Xlfn.Distribution.Frames

/-!
# Xlfn — what a recovery may change

Whatever a recovery of a destination does, it does to the destination, to directories with the
prefix of its transactions, and to the names under which it puts them aside. A frame in which these
are free is a frame of the whole recovery.

* `Reserved` — the paths of a destination are free in a frame.
-/

namespace Xlfn.Distribution

open Xlfn.Lib.Act
open Xlfn.Lib (Act PathTree)
open Xlfn.Package (Name)

variable {I α : Type}

-- ---- Reading.

namespace ReadOnly

theorem readTransactionJournal (path : Path) :
    ReadOnly (readTransactionJournal path : Run I _) := by
  refine Moves.bind unreadable fun failed => Moves.bind (lookup path) fun entry => ?_
  split
  · exact Moves.ite (Moves.fail _) (Moves.pure _)
  · exact Moves.fail _

theorem transactionSuffix (start : Name) (transaction : Path) :
    ReadOnly (transactionSuffix start transaction : Run I _) := by
  unfold Distribution.transactionSuffix
  split
  · exact Moves.fail _
  · split
    · exact Moves.fail _
    · exact Moves.pure _

theorem transactionIdOf (start : Name) (transaction : Path) :
    ReadOnly (transactionIdOf start transaction : Run I _) :=
  Moves.bind (transactionSuffix start transaction) fun _ => Moves.pure _

theorem isPrivateTransaction (start : Name) (transaction : Path) :
    ReadOnly (isPrivateTransaction start transaction : Run I _) :=
  Moves.bind (transactionSuffix start transaction) fun _ => Moves.pure _

theorem readDir (path : Path) : ReadOnly (readDir path : Run I _) :=
  Moves.bind (check _) fun _ => Moves.bind Moves.get fun _ =>
    Moves.ite (Moves.pure _) (Moves.fail _)

theorem transactionPayloads (transaction : Path) :
    ReadOnly (transactionPayloads transaction : Run I _) :=
  Moves.bind (readDir transaction) fun _ => Moves.pure _

variable [DecidableEq I]

theorem validateTransactionProvenance (location : Location) (transaction : Path)
    (journal : TransactionJournal I) :
    ReadOnly (validateTransactionProvenance location transaction journal) := by
  refine Moves.bind (openPrivate _) fun _ => Moves.bind (transactionIdOf _ _) fun _ => ?_
  refine Moves.ite (Moves.fail _) (Moves.ite (Moves.fail _) ?_)
  exact Moves.bind (requireDirectoryIdentity _ _ _) fun _ => requireDirectoryIdentity _ _ _

theorem requireOriginalDestination (destination : Path) (journal : TransactionJournal I) :
    ReadOnly (requireOriginalDestination destination journal) :=
  Moves.bind (required _ _) fun _ => requireDirectoryIdentity _ _ _

end ReadOnly

-- ---- Moves.

/-- The paths of a destination's own are free. -/
structure Reserved (F : FileFrame I) (location : Location) : Prop where
  destination : F.free location.destination
  transaction : ∀ {name}, transactionPrefix location.destinationName <+: name →
    F.free (location.parent ++ [name])
  quarantine  : ∀ id counter,
    F.free (location.parent ++ [quarantineName location.destinationName id counter])

variable {F : FileFrame I} {location : Location} {transaction previous : Path}

theorem removeFile_moves {path : Path} (hpath : F.free path) :
    Moves F.toFrame (removeFile path : Run I _) := by
  refine F.after (ReadOnly.check _) fun _ => Moves.get_bind fun s => ?_
  cases hfound : s.files.lookup path with
  | none => exact F.refl s
  | some entry =>
    cases entry with
    | directory identity isPrivate => exact F.refl s
    | file journal => exact FileFrame.removeTree hpath s

theorem adoptNext_moves (htransaction : F.free transaction) :
    Moves F.toFrame (adoptNext location transaction : Run I _) :=
  Moves.bind (FileFrame.atomicReplaceFile (F.below htransaction _) (F.below htransaction _))
    fun _ => F.after (ReadOnly.syncDirectory _) fun _ =>
      F.reads (ReadOnly.syncDirectory _)

theorem removeEmptyTransaction_moves {parent : Path} (htransaction : F.free transaction) :
    Moves F.toFrame (removeEmptyTransaction parent transaction : Run I _) :=
  F.after (ReadOnly.openPrivate _) fun _ => FileFrame.cleanupNow htransaction

theorem quarantineAttempts_moves (h : Reserved F location) (htransaction : F.free transaction)
    (id : Name) (reason : String) (attempts : Nat) :
    Moves F.toFrame (quarantineAttempts location transaction id reason attempts : Run I _) := by
  induction attempts with
  | zero => exact Moves.fail _
  | succ attempts ih =>
    refine F.after ReadOnly.nextCounter fun counter => ?_
    -- A name that is taken costs an attempt; a free one ends them, whatever the rename does.
    refine F.after (ReadOnly.isPresent _) fun _ => Moves.ite ih ?_
    refine Moves.bind (Moves.attempt (FileFrame.rename htransaction (h.quarantine id counter)))
      fun renamed => ?_
    cases renamed with
    | error error => exact Moves.fail _
    | ok _ =>
      refine Moves.bind (Moves.attempt (F.reads (ReadOnly.syncDirectory _))) fun synced => ?_
      cases synced with
      | error error => exact Moves.fail _
      | ok _ => exact Moves.fail _

theorem quarantineTransaction_moves (h : Reserved F location) (htransaction : F.free transaction)
    (reason : String) :
    Moves F.toFrame (quarantineTransaction location transaction reason : Run I _) :=
  Moves.bind (Moves.attempt (F.reads (ReadOnly.transactionIdOf _ _))) fun _ =>
    quarantineAttempts_moves h htransaction _ reason 64

section

variable [DecidableEq I] {destination : Path} (journal : TransactionJournal I)

theorem exchangeDestination_moves (hdestination : F.free destination)
    (htransaction : F.free transaction) (hprevious : F.free previous) (expectedPrevious : I) :
    Moves F.toFrame
      (exchangeDestination destination transaction previous expectedPrevious journal) := by
  have hinstall : F.free (transaction ++ [recoveryInstallName]) := F.below htransaction _
  -- Both branches end in the exchange; the second removes a stale installation before it.
  have hexchange : Moves F.toFrame (do
      rename destination (transaction ++ [recoveryInstallName])
      syncRenameParents destination (transaction ++ [recoveryInstallName])
      requireDirectoryIdentity previous expectedPrevious "previous backup"
      rename previous destination
      syncRenameParents previous destination
      requireDirectoryIdentity destination expectedPrevious "restored destination"
      removeDirAll (transaction ++ [recoveryInstallName])
      syncDirectory transaction) := by
    refine Moves.bind (FileFrame.rename hdestination hinstall) fun _ => ?_
    refine F.after (ReadOnly.syncRenameParents _ _) fun _ => ?_
    refine F.after (ReadOnly.requireDirectoryIdentity _ _ _) fun _ => ?_
    refine Moves.bind (FileFrame.rename hprevious hdestination) fun _ => ?_
    refine F.after (ReadOnly.syncRenameParents _ _) fun _ => ?_
    refine F.after (ReadOnly.requireDirectoryIdentity _ _ _) fun _ => ?_
    exact FileFrame.cleanupNow hinstall
  refine F.after (ReadOnly.required _ _) fun _ => ?_
  refine F.after (ReadOnly.requireDirectoryIdentity _ _ _) fun _ => ?_
  refine F.after (ReadOnly.optionalDirectoryIdentity _) fun found => ?_
  cases found with
  | none => exact hexchange
  | some identity =>
    refine F.after (ReadOnly.requireDirectoryIdentity _ _ _) fun _ => ?_
    refine Moves.bind (FileFrame.removeDirAll hinstall) fun _ => ?_
    exact F.after (ReadOnly.syncDirectory _) fun _ => hexchange

theorem refillDestination_moves (hdestination : F.free destination)
    (htransaction : F.free transaction) (hprevious : F.free previous) (expectedPrevious : I) :
    Moves F.toFrame
      (refillDestination destination transaction previous expectedPrevious journal) := by
  have hinstall : F.free (transaction ++ [recoveryInstallName]) := F.below htransaction _
  -- The branches differ in what they check first; `next` is what they end in.
  have hrefill {next : Option I → Run I Unit} (hnone : Moves F.toFrame (next none))
      (hsome : ∀ identity, Moves F.toFrame (next (some identity))) : Moves F.toFrame (do
        rename previous destination
        syncRenameParents previous destination
        requireDirectoryIdentity destination expectedPrevious "restored destination"
        let found ← optionalDirectoryIdentity (transaction ++ [recoveryInstallName])
        next found) := by
    refine Moves.bind (FileFrame.rename hprevious hdestination) fun _ => ?_
    refine F.after (ReadOnly.syncRenameParents _ _) fun _ => ?_
    refine F.after (ReadOnly.requireDirectoryIdentity _ _ _) fun _ => ?_
    refine F.after (ReadOnly.optionalDirectoryIdentity _) fun found => ?_
    cases found with
    | none => exact hnone
    | some identity => exact hsome identity
  refine F.after (ReadOnly.optionalDirectoryIdentity _) fun found => ?_
  cases found with
  | none => exact hrefill (Moves.pure _) fun _ => FileFrame.cleanupNow hinstall
  | some identity =>
    refine F.after (ReadOnly.required _ _) fun _ => ?_
    refine F.after (ReadOnly.requireDirectoryIdentity _ _ _) fun _ => ?_
    exact hrefill (Moves.pure _) fun _ => FileFrame.cleanupNow hinstall

theorem restorePreviousDistribution_moves (hdestination : F.free destination)
    (htransaction : F.free transaction) (hprevious : F.free previous) :
    Moves F.toFrame (restorePreviousDistribution destination transaction previous journal) := by
  refine F.after (ReadOnly.validateDirectoryPath _) fun _ => ?_
  refine F.after (ReadOnly.required _ _) fun _ => ?_
  refine F.after (ReadOnly.requireDirectoryIdentity _ _ _) fun _ => ?_
  refine F.after (ReadOnly.check _) fun _ => ?_
  refine F.after (ReadOnly.optionalDirectoryIdentity _) fun found => ?_
  cases found with
  | none => exact refillDestination_moves journal hdestination htransaction hprevious _
  | some identity => exact exchangeDestination_moves journal hdestination htransaction hprevious _

theorem removeRecoveryInstall_moves (htransaction : F.free transaction) :
    Moves F.toFrame (removeRecoveryInstall transaction journal) := by
  refine F.after (ReadOnly.check _) fun _ => ?_
  refine F.after (ReadOnly.optionalDirectoryIdentity _) fun found => ?_
  cases found with
  | none => exact Moves.pure _
  | some identity =>
    refine F.after (ReadOnly.required _ _) fun _ => ?_
    refine F.after (ReadOnly.requireDirectoryIdentity _ _ _) fun _ => ?_
    exact FileFrame.cleanupNow (F.below htransaction _)

-- ---- Journals.

omit [DecidableEq I] in
theorem dropNext_moves (htransaction : F.free transaction) (result : α) : Moves F.toFrame (do
      removeFile (transaction ++ [journalNext])
      syncDirectory transaction
      pure result : Run I α) :=
  Moves.bind (removeFile_moves (F.below htransaction _)) fun _ =>
    F.after (ReadOnly.syncDirectory _) fun _ => Moves.pure _

theorem recoverNext_moves (h : Reserved F location) (htransaction : F.free transaction)
    (next : Option (Entry I)) :
    Moves F.toFrame (recoverNext location transaction journal next) := by
  unfold recoverNext
  split
  · exact Moves.pure _
  · exact Moves.bind (quarantineTransaction_moves h htransaction _) fun _ => Moves.pure _
  · refine Moves.bind (Moves.attempt (F.reads (ReadOnly.readTransactionJournal _))) fun state => ?_
    cases state with
    | error error => exact dropNext_moves htransaction journal
    | ok state =>
      refine Moves.ite ?_ (dropNext_moves htransaction journal)
      refine F.after (ReadOnly.validateTransactionProvenance _ _ _) fun _ => ?_
      refine F.after (ReadOnly.openPrivate _) fun _ => ?_
      exact Moves.bind (adoptNext_moves htransaction) fun _ => Moves.pure _

theorem recoverJournal_moves (h : Reserved F location) (htransaction : F.free transaction)
    (payloads : List Name) (journal next : Option (Entry I)) :
    Moves F.toFrame (recoverJournal location transaction payloads journal next) := by
  have hquarantine (reason : String) : Moves F.toFrame (do
      quarantineTransaction location transaction reason
      pure none : Run I (Option (TransactionJournal I × Bool))) :=
    Moves.bind (quarantineTransaction_moves h htransaction reason) fun _ => Moves.pure _
  unfold recoverJournal
  split
  · exact hquarantine _
  · refine Moves.bind (Moves.attempt (F.reads (ReadOnly.readTransactionJournal _))) fun state => ?_
    cases state with
    | error error => exact hquarantine _
    | ok state => exact Moves.pure _
  · exact hquarantine _
  · refine Moves.bind (Moves.attempt (F.reads (ReadOnly.readTransactionJournal _))) fun state => ?_
    cases state with
    | error error =>
      refine Moves.ite ?_ (hquarantine _)
      refine Moves.bind (removeFile_moves (F.below htransaction _)) fun _ => ?_
      refine F.after (ReadOnly.syncDirectory _) fun _ => ?_
      exact Moves.bind (removeEmptyTransaction_moves htransaction) fun _ => Moves.pure _
    | ok state =>
      refine F.after (ReadOnly.validateTransactionProvenance _ _ _) fun _ => ?_
      refine F.after (ReadOnly.openPrivate _) fun _ => ?_
      exact Moves.bind (adoptNext_moves htransaction) fun _ => Moves.pure _
  · refine Moves.ite ?_ (hquarantine _)
    exact Moves.bind (removeEmptyTransaction_moves htransaction) fun _ => Moves.pure _

-- ---- The states.

variable (h : Reserved F location) (htransaction : F.free transaction)

include h

theorem recoverPrepared_moves (hprevious : F.free previous) :
    Moves F.toFrame (recoverPrepared location previous journal) := by
  refine F.after (ReadOnly.optionalDirectoryIdentity _) fun found => ?_
  cases found with
  | none =>
    dsimp only
    split
    · exact F.reads (ReadOnly.requireDirectoryIdentity _ _ _)
    · exact Moves.pure _
  | some identity =>
    refine F.after (ReadOnly.required _ _) fun _ => ?_
    refine F.after (ReadOnly.requireDirectoryIdentity _ _ _) fun _ => ?_
    refine F.after (ReadOnly.optionalDirectoryIdentity _) fun present => ?_
    cases present with
    | some identity => exact Moves.fail _
    | none =>
      refine Moves.bind (FileFrame.rename hprevious h.destination) fun _ => ?_
      refine F.after (ReadOnly.syncRenameParents _ _) fun _ => ?_
      exact F.reads (ReadOnly.requireDirectoryIdentity _ _ _)

include htransaction

theorem recoverSaved_moves (hprevious : F.free previous) (lost : String) :
    Moves F.toFrame (recoverSaved location transaction previous journal lost) := by
  refine F.after (ReadOnly.optionalDirectoryIdentity _) fun found => ?_
  cases found with
  | none => exact Moves.fail _
  | some identity =>
    exact restorePreviousDistribution_moves journal h.destination htransaction hprevious

theorem recoverRollback_moves (hprevious : F.free previous) :
    Moves F.toFrame (recoverRollback location transaction previous journal) := by
  refine F.after (ReadOnly.optionalDirectoryIdentity _) fun found => ?_
  cases found with
  | none =>
    exact F.after (ReadOnly.requireOriginalDestination _ _) fun _ =>
      removeRecoveryInstall_moves journal htransaction
  | some identity =>
    exact restorePreviousDistribution_moves journal h.destination htransaction hprevious

theorem recoverFirst_moves :
    Moves F.toFrame (recoverFirst location transaction previous journal) := by
  refine F.after (ReadOnly.optionalDirectoryIdentity _) fun found => ?_
  cases found with
  | some identity => exact Moves.fail _
  | none =>
    exact Moves.bind (FileFrame.removeInstalledDistribution h.destination journal) fun _ =>
      removeRecoveryInstall_moves journal htransaction

theorem recoverRolledBack_moves (hprevious : F.free previous) :
    Moves F.toFrame (recoverRolledBack location transaction previous journal) := by
  refine F.after (ReadOnly.optionalDirectoryIdentity _) fun found => ?_
  cases found with
  | none =>
    exact F.after (ReadOnly.requireOriginalDestination _ _) fun _ =>
      removeRecoveryInstall_moves journal htransaction
  | some identity =>
    exact Moves.bind (restorePreviousDistribution_moves journal h.destination htransaction
      hprevious) fun _ => removeRecoveryInstall_moves journal htransaction

theorem recoverCommitted_moves (hprevious : F.free previous) :
    Moves F.toFrame (recoverCommitted location transaction previous journal) := by
  refine F.after (ReadOnly.required _ _) fun _ => ?_
  refine F.after (ReadOnly.optionalDirectoryIdentity _) fun found => ?_
  cases found with
  | none => exact quarantineTransaction_moves h htransaction _
  | some identity =>
    refine F.after (ReadOnly.requireDirectoryIdentity _ _ _) fun _ => ?_
    refine F.after (ReadOnly.optionalDirectoryIdentity _) fun saved => ?_
    cases saved with
    | none => exact removeRecoveryInstall_moves journal htransaction
    | some identity =>
      refine F.after (ReadOnly.required _ _) fun _ => ?_
      refine F.after (ReadOnly.requireDirectoryIdentity _ _ _) fun _ => ?_
      refine Moves.bind (FileFrame.removeDirAll hprevious) fun _ => ?_
      exact F.after (ReadOnly.syncDirectory _) fun _ =>
        removeRecoveryInstall_moves journal htransaction

/-- **Each state.** -/
theorem recoverState_moves : Moves F.toFrame (recoverState location transaction journal) := by
  have hprevious : F.free (transaction ++ [previousName]) := F.below htransaction _
  unfold recoverState
  cases journal.state with
  | prepared => exact recoverPrepared_moves journal h hprevious
  | noPrevious =>
    refine F.reads (Moves.bind (ReadOnly.optionalDirectoryIdentity _) fun found => ?_)
    cases found with
    | some identity => exact Moves.fail _
    | none =>
      refine Moves.bind (ReadOnly.optionalDirectoryIdentity _) fun present => ?_
      refine Moves.ite (Moves.fail _) ?_
      split
      · exact ReadOnly.requireDirectoryIdentity _ _ _
      · exact Moves.pure _
  | installPending | previousSaved | installed =>
    exact recoverSaved_moves journal h htransaction hprevious _
  | rollbackPending => exact recoverRollback_moves journal h htransaction hprevious
  | installPendingNoPrevious | installedNoPrevious | rollbackPendingNoPrevious =>
    exact recoverFirst_moves journal h htransaction
  | rolledBack => exact recoverRolledBack_moves journal h htransaction hprevious
  | committed => exact recoverCommitted_moves journal h htransaction hprevious

-- ---- Transactions.

theorem recoverWithJournal_moves (guard : DistributionCommitGuard) (isPrivate : Bool)
    (payloads : List Name) (next : Option (Entry I)) :
    Moves F.toFrame
      (recoverWithJournal location guard transaction isPrivate payloads journal next) := by
  refine F.after (ReadOnly.validateTransactionProvenance _ _ _) fun _ => ?_
  refine Moves.bind (recoverNext_moves journal h htransaction next) fun journal => ?_
  refine Moves.ite (quarantineTransaction_moves h htransaction _) ?_
  refine F.after (ReadOnly.check _) fun _ => ?_
  refine F.after (ReadOnly.ensureHeld _) fun _ => ?_
  refine Moves.bind (recoverState_moves journal h htransaction) fun _ => ?_
  refine F.after (ReadOnly.ensureHeld _) fun _ => ?_
  exact F.after (ReadOnly.openPrivate _) fun _ => FileFrame.cleanupNow htransaction

theorem recoverDistributionTransaction_moves (guard : DistributionCommitGuard) :
    Moves F.toFrame (recoverDistributionTransaction location guard transaction : Run I _) := by
  -- Neither half leaves the frame, and the errors of both only get their place.
  refine Moves.bind (Moves.mapError ?_) fun found => ?_
  · refine F.after (ReadOnly.ensureHeld _) fun _ => ?_
    refine F.after (ReadOnly.openPrivate _) fun _ => ?_
    refine F.after (ReadOnly.isPrivateTransaction _ _) fun _ => ?_
    refine F.after (ReadOnly.transactionPayloads _) fun payloads => ?_
    refine F.after (ReadOnly.check _) fun _ => ?_
    refine F.after (ReadOnly.check _) fun _ => ?_
    refine F.after (ReadOnly.symlinkMetadata _) fun journal => ?_
    refine F.after (ReadOnly.symlinkMetadata _) fun next => ?_
    exact Moves.bind (recoverJournal_moves h htransaction payloads journal next) fun _ =>
      Moves.pure _
  · cases found with
    | none => exact Moves.pure _
    | some found => exact Moves.mapError (recoverWithJournal_moves _ h htransaction guard _ _ _)

end

variable [DecidableEq I]

theorem recoverEach_moves (h : Reserved F location) (guard : DistributionCommitGuard)
    (transactions : List Path) (hfree : ∀ transaction ∈ transactions, F.free transaction) :
    Moves F.toFrame (recoverEach location guard transactions : Run I _) := by
  induction transactions with
  | nil => exact Moves.pure _
  | cons transaction transactions ih =>
    refine Moves.bind (recoverDistributionTransaction_moves h
      (hfree transaction List.mem_cons_self) guard) fun _ => ?_
    exact ih fun other hother => hfree other (List.mem_cons_of_mem _ hother)

/-- **A recovery stays in every frame** in which the paths of its destination are free. -/
theorem recoverStaleTransactions_moves (h : Reserved F location) (guard : DistributionCommitGuard) :
    Moves F.toFrame (recoverStaleTransactions location guard : Run I _) := by
  refine F.after (ReadOnly.ensureHeld _) fun _ => Moves.ite (Moves.fail _) ?_
  refine F.after (ReadOnly.validateDirectoryPath _) fun _ => ?_
  refine F.after (ReadOnly.readDir _) fun names => ?_
  refine recoverEach_moves h guard _ fun transaction htransaction => ?_
  obtain ⟨name, hname, rfl⟩ := List.mem_map.mp htransaction
  exact h.transaction (of_decide_eq_true (List.mem_filter.mp hname).2)

/-- **What a recovery leaves alone**: every path that is not at or below the destination, or a
transaction or a quarantine of it. -/
theorem recovery_frame (location : Location) (guard : DistributionCommitGuard) (world : World I)
    (path : Path) :
    (recoverStaleTransactions location guard world).2.files.lookup path = world.files.lookup path ∨
    location.destination <+: path ∨ ∃ name, location.parent ++ [name] <+: path ∧
      (transactionPrefix location.destinationName <+: name ∨
        ∃ id counter, name = quarantineName location.destinationName id counter) := by
  refine Classical.or_iff_not_imp_right.mpr fun h => ?_
  obtain ⟨hdestination, hname⟩ := not_or.mp h
  exact recoverStaleTransactions_moves (F := (keeping path).toFileFrame) ⟨hdestination,
    fun hstart hbelow => hname ⟨_, hbelow, .inl hstart⟩,
    fun id counter hbelow => hname ⟨_, hbelow, .inr ⟨id, counter, rfl⟩⟩⟩ guard world

end Xlfn.Distribution
