import Xlfn.Distribution.Operations

/-!
# Xlfn — what the outcome of a commit tells

A commit that returns has what was prepared at the destination. A commit that fails with an error
other than an interruption, a failed recovery or a quarantine has at the destination what was there
when the stale transactions had been recovered: until `output_changed` is set nothing but the
transaction directory was touched, and it is reset only where the identity of what was put back was
checked, or where what was installed over nothing is gone.

* `Commit.reported` — what each exit must meet.
-/

namespace Xlfn.Distribution

open Xlfn.Lib.Act FileFrame List
open Xlfn.Lib (Act PathTree)
open Xlfn.Package (Name)

variable {I : Type} [DecidableEq I]

-- ---- The transaction directory.

theorem transactionPrefix_length (destinationName : Name) :
    (transactionPrefix destinationName).length = destinationName.length + 14 := by
  unfold transactionPrefix
  rw [cons_append, length_cons, length_append]
  rfl

theorem Location.not_above (location : Location) {name : Name}
    (h : location.destinationName.length < name.length) :
    ¬location.parent ++ [name] <+: location.destination := by
  intro hprefix
  have hname := (prefix_append_right_inj _).mp hprefix
  obtain ⟨rfl, -⟩ := cons_prefix_cons.mp hname
  exact absurd h (lt_irrefl _)

theorem Location.transactionName_not_above (location : Location) (id : Name) :
    ¬location.parent ++ [transactionName location.destinationName id] <+: location.destination := by
  refine location.not_above ?_
  unfold transactionName
  rw [length_append, transactionPrefix_length]
  omega

theorem Location.privateName_not_above (location : Location) (id : Name) :
    ¬location.parent ++ [privateName location.destinationName id] <+: location.destination := by
  refine location.not_above ?_
  unfold privateName
  rw [length_append, length_append, transactionPrefix_length]
  omega

omit [DecidableEq I] in
theorem publishTransaction_keeps (location : Location) (id : Name) (identity : Option I) :
    Moves (keeping location.destination).toFrame (publishTransaction location id identity) := by
  have hfinal := location.transactionName_not_above id
  have hprivate := location.privateName_not_above id
  refine Moves.bind (reads _ (ReadOnly.directoryIdentity _)) fun _ => ?_
  refine Moves.bind (reads _ (ReadOnly.directoryIdentity _)) fun _ => ?_
  refine Moves.bind (WriteFrame.writeTransactionState hprivate _ _) fun _ => ?_
  refine Moves.bind (reads _ (ReadOnly.openPrivate _)) fun _ => ?_
  refine Moves.bind (FileFrame.rename hprivate hfinal) fun _ => ?_
  refine Moves.bind (reads _ (ReadOnly.syncRenameParents _ _)) fun _ => ?_
  exact Moves.bind (reads _ (ReadOnly.openPrivate _)) fun _ => Moves.pure _

omit [DecidableEq I] in
theorem createAttempts_keeps (location : Location) (timestamp : Nat) (identity : Option I)
    (attempts : Nat) :
    Moves (keeping location.destination).toFrame
      (createAttempts location timestamp identity attempts) := by
  induction attempts with
  | zero => exact Moves.fail _
  | succ attempts ih =>
    refine Moves.bind (reads _ ReadOnly.nextCounter) fun counter => ?_
    refine Moves.bind Moves.get fun world => ?_
    refine Moves.bind (reads _ (ReadOnly.isPresent _)) fun _ => Moves.ite ih ?_
    refine Moves.bind (reads _ (ReadOnly.isPresent _)) fun _ => Moves.ite ih ?_
    refine Moves.bind (Moves.attempt
      (WriteFrame.createPrivate (location.privateName_not_above _))) fun created => ?_
    cases created with
    | ok _ => exact publishTransaction_keeps location _ identity
    | error error =>
      refine Moves.bind (reads _ (ReadOnly.isPresent _)) fun _ => Moves.ite ih ?_
      exact Moves.bind (reads _ (ReadOnly.isPresent _)) fun _ =>
        Moves.ite ih (Moves.fail _)

omit [DecidableEq I] in
theorem createAttempts_name (location : Location) (timestamp : Nat) (identity : Option I)
    (attempts : Nat) (s : World I) :
    wp (createAttempts location timestamp identity attempts)
      ⟨fun created _ => ¬created.1 <+: location.destination, fun _ _ => True⟩ s := by
  induction attempts generalizing s with
  | zero => exact True.intro
  | succ attempts ih =>
    unfold createAttempts
    refine wp_rest (fun _ _ => True.intro) fun counter t => ?_
    refine wp_rest (fun _ _ => True.intro) fun world t => ?_
    refine wp_rest (fun _ _ => True.intro) fun present t => ?_
    rw [wp_ite]
    split
    · exact ih t
    refine wp_rest (fun _ _ => True.intro) fun present t => ?_
    rw [wp_ite]
    split
    · exact ih t
    refine wp_rest (fun _ _ => True.intro) fun created t => ?_
    cases created with
    | ok _ =>
      unfold publishTransaction
      iterate 7 refine wp_rest (fun _ _ => True.intro) fun _ t => ?_
      exact location.transactionName_not_above _
    | error error =>
      refine wp_rest (fun _ _ => True.intro) fun present t => ?_
      rw [wp_ite]
      split
      · exact ih t
      refine wp_rest (fun _ _ => True.intro) fun present t => ?_
      rw [wp_ite]
      split
      · exact ih t
      · exact True.intro

omit [DecidableEq I] in
/-- A new transaction lies outside the destination, which it leaves alone. -/
theorem createTransaction_spec (location : Location) (identity : Option I) (s : World I) :
    wp (createTransaction location identity)
      ⟨fun created t => ¬created.1 <+: location.destination ∧
          t.files.lookup location.destination = s.files.lookup location.destination,
        fun _ t =>
          t.files.lookup location.destination = s.files.lookup location.destination⟩ s := by
  refine wp_mono (Moves.and (F := (keeping location.destination).toFrame) ?_
    (?_ : wp _ ⟨fun created _ => ¬created.1 <+: location.destination, fun _ _ => True⟩ s))
    (fun _ _ h => h) fun _ _ h => h.2
  · exact Moves.bind (reads _ ReadOnly.ask) fun _ => createAttempts_keeps _ _ _ _
  · exact wp_rest (fun _ _ => True.intro) fun answer t => createAttempts_name _ _ _ _ t

-- ---- What an exit must meet.

/-- `Interrupted`, `Recovery` or `Quarantined`: where to look is in the error. -/
def DistributionError.Located : DistributionError → Prop
  | .recovery _ _ _ _ => True
  | .quarantined _ _ _ => True
  | .interrupted _ _ _ _ => True
  | _ => False

theorem interruptedDistribution_located (destination transaction : Path) (previous : Option Path)
    (error : DistributionError) :
    (interruptedDistribution destination transaction previous error).Located := by
  cases error <;> exact True.intro

namespace Commit

variable {commit : Commit I} {old : Option (Option I)} {journal : TransactionJournal I}

/-- The files beside `output_changed`, where an error may be returned. -/
def Steady (commit : Commit I) (old : Option (Option I)) (s : World I × Bool) : Prop :=
  s.2 = true ∨ identityAt s.1.files commit.destination = old

/-- What each exit must meet. -/
def reported (commit : Commit I) (old : Option (Option I)) :
    Post (World I × Bool) DistributionError CommitOutcome where
  ok _ t := identityAt t.1.files commit.destination = some (some commit.prepared.identity)
  error _ t := commit.Steady old t

/-- What a running commit knows: the transaction is not above the destination, and nothing was at
the destination of a first installation. -/
structure Begun (commit : Commit I) (old : Option (Option I)) : Prop where
  own   : ¬commit.transaction <+: commit.destination
  first : commit.hadPrevious = false → old = none

/-- The journal names what was at the destination. -/
def Saved (commit : Commit I) (old : Option (Option I)) (journal : TransactionJournal I) : Prop :=
  commit.hadPrevious = true →
    ∃ previous, journal.previousIdentity = some previous ∧ old = some (some previous)

omit [DecidableEq I] in
theorem Begun.below (h : commit.Begun old) (name : Name) :
    ¬commit.transaction ++ [name] <+: commit.destination :=
  (keeping (I := I) commit.destination).below h.own [name]

omit [DecidableEq I] in
/-- A record returns the journal that was written, and the destination is as it was. -/
theorem Begun.record_spec (h : commit.Begun old) (journal : TransactionJournal I)
    (replacing first : TransactionState) (s : World I) :
    wp (commit.record journal replacing first)
      ⟨fun written t => (∃ state, written = journal.advanced state) ∧
          identityAt t.files commit.destination = identityAt s.files commit.destination,
        fun _ t => identityAt t.files commit.destination =
          identityAt s.files commit.destination⟩ s := by
  have hkeeps : Moves (keeping commit.destination).toFrame
      (commit.record journal replacing first) := WriteFrame.writeTransactionState h.own _ _
  refine wp_mono (hkeeps.and (writeTransactionState_spec _ _ _ _ _)) ?_ ?_
  · rintro written t ⟨hwritten, hkeep⟩
    exact ⟨⟨_, hwritten⟩, identityAt_congr hkeep⟩
  · rintro e t ⟨-, hkeep⟩
    exact identityAt_congr hkeep

variable {s : World I × Bool}

omit [DecidableEq I] in
theorem keeps_bind {α β : Type} (commit : Commit I) {m : Run I β} {f : β → Part I α}
    {Q : Post (World I × Bool) DistributionError α}
    (hm : Moves (keeping commit.destination).toFrame m)
    (herror : ∀ e t, identityAt t.files commit.destination =
        identityAt s.1.files commit.destination → Q.error e (t, s.2))
    (hf : ∀ a t, identityAt t.files commit.destination =
        identityAt s.1.files commit.destination → wp (f a) Q (t, s.2)) : wp (lift m >>= f) Q s :=
  lift_spec (hm.ends s.1) (fun a t h => hf a t (identityAt_congr h)) fun e t h =>
    herror e t (identityAt_congr h)

omit [DecidableEq I] in
theorem Steady.of_eq {t : World I} (h : commit.Steady old s)
    (hkeep : identityAt t.files commit.destination = identityAt s.1.files commit.destination) :
    commit.Steady old (t, s.2) :=
  h.imp id hkeep.trans

-- ---- The parts.

/-- **What was put back** has the identity that was expected. -/
theorem restorePrevious_spec (commit : Commit I) (expected : Option I) (s : World I) :
    wp (commit.restorePrevious expected)
      ⟨fun _ t => ∃ identity, expected = some identity ∧
          identityAt t.files commit.destination = some (some identity), fun _ _ => True⟩ s := by
  unfold restorePrevious
  refine wp_rest (fun _ _ => True.intro) fun _ t => ?_
  refine wp_rest (fun _ _ => True.intro) fun _ t => ?_
  refine bind_spec (required_spec expected _ t) ?_ fun _ _ _ => True.intro
  rintro identity _ ⟨hidentity, rfl⟩
  iterate 3 refine wp_rest (fun _ _ => True.intro) fun _ t => ?_
  refine wp_mono (requireDirectoryIdentity_spec _ _ _ t) (fun _ u h => ?_) fun _ _ _ => True.intro
  exact ⟨identity, hidentity, by rw [h.2]; exact h.1⟩

omit [DecidableEq I] in
/-- Saving the previous directory reports what became of it. -/
theorem Begun.savePrevious_reports (h : commit.Begun old) (journal : TransactionJournal I)
    (s : World I) (hold : identityAt s.files commit.destination = old) :
    wp (commit.savePrevious journal)
      ⟨fun saved t => commit.Saved old saved ∧ t.2 = commit.hadPrevious ∧ commit.Steady old t,
        fun _ t => commit.Steady old t⟩ (s, false) := by
  unfold savePrevious
  by_cases hprevious : commit.hadPrevious = true
  · rw [if_pos hprevious]
    refine commit.keeps_bind (reads _ (ReadOnly.validateCommitLocation _))
      (fun e t hkeep => .inr (hkeep.trans hold)) fun _ t hkeep => ?_
    refine commit.keeps_bind (reads _ (ReadOnly.ensureHeld _))
      (fun e u hu => .inr (hu.trans (hkeep.trans hold))) fun _ u hu => ?_
    have hthere : identityAt u.files commit.destination = old := hu.trans (hkeep.trans hold)
    refine lift_spec (rename_spec _ _ u) (fun _ v hv => ?_) fun e v hv => ?_
    · -- From here on an error is an interruption.
      refine bind_spec (R := ⟨fun _ t => t = (v, true), fun _ _ => False⟩) rfl ?_
        fun _ _ h => h.elim
      rintro _ _ rfl
      refine lift_spec ((ReadOnly.syncRenameParents _ _).ends v) (fun _ w hw => ?_)
        fun _ _ _ => .inl rfl
      refine lift_spec (directoryIdentity_spec _ w) (fun identity x hx => ?_) fun _ _ _ => .inl rfl
      have hsaved : old = some (some identity) := by
        rw [← hthere, ← identityAt_congr hv, ← show w.files = v.files from hw]
        exact hx.1
      rw [wp_lift]
      refine wp_mono (h.record_spec _ _ _ x) ?_ fun _ _ _ => .inl rfl
      rintro written y ⟨⟨state, rfl⟩, -⟩
      exact ⟨fun _ => ⟨identity, rfl, hsaved⟩, hprevious.symm, .inl rfl⟩
    · exact .inr (by rw [hv]; exact hthere)
  · rw [if_neg hprevious, wp_lift]
    refine wp_mono (h.record_spec _ _ _ s) ?_ fun _ t hkeep => .inr (hkeep.trans hold)
    rintro written t ⟨-, hkeep⟩
    exact ⟨fun htrue => absurd htrue hprevious, (Bool.not_eq_true _ ▸ hprevious).symm,
      .inr (hkeep.trans hold)⟩

theorem Begun.installFailed_reports (h : commit.Begun old) (hsaved : commit.Saved old journal)
    (commitError : DistributionError) (hflag : s.2 = commit.hadPrevious)
    (hsteady : commit.Steady old s) :
    wp (commit.installFailed journal commitError) (commit.reported old) s := by
  unfold installFailed
  refine attempt_lift_spec (h.record_spec _ _ _ s.1) ?_ fun e t hkeep => hsteady.of_eq hkeep
  rintro written t ⟨⟨state, rfl⟩, hkeep⟩
  by_cases hprevious : commit.hadPrevious = true
  · have hchanged : s.2 = true := hflag.trans hprevious
    simp only [if_pos hprevious]
    refine attempt_lift_spec (commit.restorePrevious_spec _ t) ?_ fun e u _ => .inl hchanged
    rintro _ u ⟨identity, hidentity, hback⟩
    -- What is at the destination is what was there.
    have hold : identityAt u.files commit.destination = old := by
      obtain ⟨previous, hjournal, hprevious⟩ := hsaved hprevious
      rw [hback, hprevious, ← hidentity]
      exact congrArg some hjournal
    refine attempt_lift_spec (h.record_spec _ _ _ u) ?_ fun e v _ => .inl hchanged
    rintro written v ⟨-, hv⟩
    refine commit.keeps_bind (FileFrame.cleanupNow h.own)
      (fun e w _ => .inl hchanged) fun _ w hw => ?_
    refine bind_spec (R := ⟨fun _ t => t = (w, false), fun _ _ => False⟩) rfl ?_
      fun _ _ h => h.elim
    rintro _ _ rfl
    have hlast : identityAt w.files commit.destination = old := hw.trans (hv.trans hold)
    exact commit.keeps_bind (reads _ (ReadOnly.syncDirectory _))
      (fun e x hx => .inr (hx.trans hlast)) fun _ x hx => .inr (hx.trans hlast)
  · simp only [if_neg hprevious]
    have hsteady : commit.Steady old (t, s.2) := hsteady.of_eq hkeep
    exact commit.keeps_bind (reads _ (ReadOnly.syncDirectory _))
      (fun e u hu => hsteady.of_eq hu) fun _ u hu => hsteady.of_eq hu

omit [DecidableEq I] in
/-- The last steps of a rollback: the transaction goes, and the error is returned. -/
theorem Begun.rolledBack_reports (h : commit.Begun old) (error : DistributionError)
    (hchanged : s.2 = true) (hold : identityAt s.1.files commit.destination = old) : wp (do
      lift (cleanupNow commit.location.parent commit.transaction)
      setLocal false
      fail error) (commit.reported old) s := by
  refine commit.keeps_bind (FileFrame.cleanupNow h.own)
    (fun e t _ => .inl hchanged) fun _ t ht => ?_
  exact .inr (ht.trans hold)

/-- The installed directory was not what was prepared: what was saved goes back, or what was
installed goes. -/
theorem Begun.verificationFailed_reports (h : commit.Begun old)
    (hsaved : commit.Saved old journal) (verificationError : DistributionError)
    (hchanged : s.2 = true) :
    wp (commit.verificationFailed journal verificationError) (commit.reported old) s := by
  unfold verificationFailed
  refine attempt_lift_spec (h.record_spec _ _ _ s.1) ?_ fun e t _ => .inl hchanged
  rintro written t ⟨⟨state, rfl⟩, -⟩
  by_cases hprevious : commit.hadPrevious = true
  · simp only [if_pos hprevious]
    refine lift_rest (fun e u => .inl hchanged) fun installed u => ?_
    refine attempt_lift_rest (fun e v => .inl hchanged) fun _ v => ?_
    refine lift_spec (required_spec _ _ v) ?_ fun e w _ => .inl hchanged
    rintro expected w ⟨hexpected, rfl⟩
    refine attempt_lift_spec (commit.restorePrevious_spec _ w) ?_ fun e x _ => .inl hchanged
    rintro _ x ⟨identity, hidentity, hback⟩
    have hold : identityAt x.files commit.destination = old := by
      obtain ⟨previous, hjournal, hold⟩ := hsaved hprevious
      have hor : journal.previousIdentity.or journal.destinationIdentity = some expected :=
        hexpected
      rw [hjournal, Option.some_or] at hor
      rw [hback, hold, ← hidentity, hor]
    refine attempt_lift_spec (h.record_spec _ _ _ x) ?_ fun e y _ => .inl hchanged
    rintro written y ⟨-, hy⟩
    refine commit.keeps_bind (FileFrame.removeInstalledDistribution (h.below _) _)
      (fun e z _ => .inl hchanged) fun _ z hz => ?_
    exact h.rolledBack_reports _ hchanged (hz.trans (hy.trans hold))
  · simp only [if_neg hprevious]
    refine attempt_lift_spec (R := ⟨fun _ u => u.files.lookup commit.destination = none,
      fun _ _ => True⟩) ?_ ?_ fun e u _ => .inl hchanged
    · exact wp_rest (fun _ _ => True.intro) fun _ u => removeInstalledDistribution_spec _ _ u
    · intro _ u hgone
      refine h.rolledBack_reports _ hchanged ?_
      show identityAt u.files commit.destination = old
      rw [h.first (Bool.not_eq_true _ ▸ hprevious), identityAt, hgone]
      rfl

omit [DecidableEq I] in
theorem Begun.finishCommit_reports (h : commit.Begun old) (journal : TransactionJournal I)
    (hchanged : s.2 = true)
    (hthere : identityAt s.1.files commit.destination = some (some commit.prepared.identity)) :
    wp (commit.finishCommit journal) (commit.reported old) s := by
  unfold finishCommit
  refine lift_spec (h.record_spec _ _ _ s.1) ?_ fun e t _ => .inl hchanged
  rintro written t ⟨-, ht⟩
  by_cases hprevious : commit.hadPrevious = true
  · rw [if_pos hprevious]
    refine attempt_lift_spec
      ((FileFrame.removeDirAll (F := (keeping commit.destination).toFileFrame) (h.below _)).ends t) ?_ ?_
    · intro _ u hu
      have hu : identityAt u.files commit.destination = identityAt t.files commit.destination :=
        identityAt_congr hu
      refine commit.keeps_bind (reads _ (ReadOnly.syncDirectory _))
        (fun e v _ => .inl hchanged) fun _ v hv => ?_
      refine commit.keeps_bind (FileFrame.cleanupNow h.own)
        (fun e w _ => .inl hchanged) fun _ w hw => ?_
      exact hw.trans (hv.trans (hu.trans (ht.trans hthere)))
    · intro e u hu
      exact (identityAt_congr hu).trans (ht.trans hthere)
  · rw [if_neg hprevious]
    refine commit.keeps_bind (FileFrame.cleanupNow h.own)
      (fun e w _ => .inl hchanged) fun _ w hw => ?_
    exact hw.trans (ht.trans hthere)

theorem Begun.installed_reports (h : commit.Begun old) (hsaved : commit.Saved old journal)
    (hthere : identityAt s.1.files commit.destination = some (some commit.prepared.identity)) :
    wp (commit.installed journal) (commit.reported old) s := by
  unfold installed
  refine bind_spec (R := ⟨fun _ t => t = (s.1, true), fun _ _ => False⟩) rfl ?_
    fun _ _ h => h.elim
  rintro _ _ rfl
  refine commit.keeps_bind (reads _ (ReadOnly.syncRenameParents _ _))
    (fun e t _ => .inl rfl) fun _ t ht => ?_
  refine commit.keeps_bind (reads _ (ReadOnly.directoryIdentity _))
    (fun e u _ => .inl rfl) fun identity u hu => ?_
  refine lift_spec (h.record_spec _ _ _ u) ?_ fun e v _ => .inl rfl
  rintro _ v ⟨⟨state, rfl⟩, hv⟩
  refine attempt_lift_spec ((ReadOnly.verifyDestination _).ends v) ?_ ?_
  · intro _ w hw
    refine h.finishCommit_reports _ rfl ?_
    show identityAt w.files commit.destination = _
    rw [show w.files = v.files from hw]
    exact hv.trans (hu.trans (ht.trans hthere))
  · intro e w _
    have hsaved : commit.Saved old
        ({ journal with installedIdentity := some identity }.advanced state) := hsaved
    exact h.verificationFailed_reports hsaved e rfl

theorem verifySource_spec (prepared : Prepared I) (s : World I) : wp (verifySource prepared)
      ⟨fun _ t => identityAt s.files prepared.stagingDirectory = some (some prepared.identity) ∧
        t.files = s.files, fun _ t => t.files = s.files⟩ s := by
  refine check_bind rfl ?_
  rw [wp_bind, wp_lookup]
  simp only [World.next_files]
  cases hfound : s.files.lookup prepared.stagingDirectory with
  | none => exact rfl
  | some entry =>
    cases entry with
    | file journal => exact rfl
    | directory identity isPrivate =>
      simp only [wp_ite]
      split
      · exact rfl
      next hidentity =>
        rw [wp_check]
        split
        · exact rfl
        · rw [← not_not.mp hidentity]
          exact ⟨identityAt_of_lookup hfound, rfl⟩

/-- **The whole commit.** -/
theorem Begun.body_reports (h : commit.Begun old) (journal : TransactionJournal I) (s : World I)
    (hold : identityAt s.files commit.destination = old) :
    wp (commit.body journal) (commit.reported old) (s, false) := by
  unfold body
  refine bind_spec (h.savePrevious_reports journal s hold) ?_ fun _ _ h => h
  rintro journal t ⟨hsaved, hflag, hsteady⟩
  refine commit.keeps_bind (reads _ (ReadOnly.verifySource _))
    (fun e u hu => hsteady.of_eq hu) fun _ u hu => ?_
  have hu : commit.Steady old (u, t.2) := hsteady.of_eq hu
  refine commit.keeps_bind (reads _ (ReadOnly.validateCommitLocation _))
    (fun e v hv => hu.of_eq hv) fun _ v hv => ?_
  have hv : commit.Steady old (v, t.2) := hu.of_eq hv
  refine commit.keeps_bind (reads _ (ReadOnly.directoryIdentity _))
    (fun e w hw => hv.of_eq hw) fun installed w hw => ?_
  have hw : commit.Steady old (w, t.2) := hv.of_eq hw
  refine lift_spec (h.record_spec _ _ _ w) ?_ fun e x hx => hw.of_eq hx
  rintro _ x ⟨⟨state, rfl⟩, hx⟩
  have hx : commit.Steady old (x, t.2) := hw.of_eq hx
  have hsaved : commit.Saved old
      ({ journal with installedIdentity := some installed }.advanced state) := hsaved
  refine commit.keeps_bind (reads _ (ReadOnly.ensureHeld _))
    (fun e y hy => hx.of_eq hy) fun _ y hy => ?_
  have hy : commit.Steady old (y, t.2) := hx.of_eq hy
  refine commit.keeps_bind (reads _ (ReadOnly.check _))
    (fun e z hz => hy.of_eq hz) fun _ z hz => ?_
  have hz : commit.Steady old (z, t.2) := hy.of_eq hz
  refine lift_spec (verifySource_spec _ z) ?_ fun e a ha => hz.of_eq (by rw [ha])
  rintro _ a ⟨hsource, ha⟩
  refine lift_spec ((ReadOnly.ensureHeld _).ends a) ?_ fun e b hb =>
    hz.of_eq (by rw [show b.files = a.files from hb, ha])
  intro _ b hb
  have hb : b.files = z.files := Eq.trans hb ha
  refine attempt_lift_spec (rename_spec _ _ b) ?_ ?_
  · intro _ c hc
    refine h.installed_reports hsaved ?_
    show identityAt c.files commit.destination = _
    rw [identityAt_congr hc, hb]
    exact hsource
  · intro e c hc
    have hc : c.files = z.files := Eq.trans hc hb
    have hlast : commit.Steady old (c, t.2) := hz.of_eq (congrArg (identityAt · _) hc)
    exact h.installFailed_reports hsaved _ hflag hlast

end Commit

-- ---- The call.

/-- What the caller may rely on, with the world in which the recovery of the stale transactions
left the call. -/
def callReported (prepared : Prepared I) (location : Location) (recovered : World I) :
    Post (World I) DistributionError CommitOutcome where
  ok _ after := identityAt after.files location.destination = some (some prepared.identity)
  error error after := ¬error.Located →
    identityAt after.files location.destination = identityAt recovered.files location.destination

theorem commitRecovered_reports (prepared : Prepared I) (location : Location)
    (guard : DistributionCommitGuard) (recovered : World I) :
    wp (commitRecovered prepared location guard) (callReported prepared location recovered)
      recovered := by
  have hreads : ∀ {t : World I}, t.files = recovered.files →
      identityAt t.files location.destination =
        identityAt recovered.files location.destination := fun h => by rw [h]
  unfold commitRecovered
  refine ReadOnly.bind (ReadOnly.validateCommitLocation _) (fun e t ht _ => hreads ht)
    fun _ t ht => ?_
  refine bind_spec ((ReadOnly.verifySource prepared).ends t) (fun _ u hu => ?_)
    fun e u hu _ => hreads (Eq.trans hu ht)
  have hu : u.files = recovered.files := Eq.trans hu ht
  refine bind_spec (optionalDirectoryIdentity_spec _ u) ?_
    fun e v hv _ => hreads (hv.trans hu)
  rintro found v ⟨hfound, hv⟩
  have hv : v.files = recovered.files := hv.trans hu
  refine bind_spec (createTransaction_spec location found v) ?_
    fun e w hw _ => (identityAt_congr hw).trans (hreads hv)
  rintro ⟨transaction, journal⟩ w ⟨hown, hw⟩
  have hw : identityAt w.files location.destination =
      identityAt recovered.files location.destination := (identityAt_congr hw).trans (hreads hv)
  refine ReadOnly.bind (ReadOnly.openPrivate _) (fun e x hx _ => by rw [hx]; exact hw)
    fun _ x hx => ?_
  refine ReadOnly.bind (ReadOnly.validateCommitLocation _)
    (fun e y hy _ => by rw [hy, hx]; exact hw) fun _ y hy => ?_
  have hy : identityAt y.files location.destination =
      identityAt recovered.files location.destination := by
    rw [hy, hx]
    exact hw
  rw [wp_withLocal]
  have hbegun : Commit.Begun ⟨location, guard, prepared, transaction, found.isSome⟩
      (identityAt recovered.files location.destination) := by
    refine ⟨hown, fun hnone => ?_⟩
    rw [← hreads hu, hfound, Option.isSome_eq_false_iff.mp hnone |> Option.isNone_iff_eq_none.mp]
    rfl
  refine wp_mono (hbegun.body_reports journal y hy) (fun _ _ h => h) ?_
  rintro e ⟨z, changed⟩ (hchanged | hkept) hlocated
  · cases hchanged
    exact absurd (interruptedDistribution_located _ _ _ _) hlocated
  · exact hkept

/-- **Every outcome is reported.** A call that returns has what was prepared at the destination; a
call that fails, and not with an interruption, a failed recovery or a quarantine, has there what its
own recovery of stale transactions left. -/
theorem commit_outcome_reported (prepared : Prepared I) (location : Location) (before : World I) :
    wp (commitPreparedDirectory prepared location)
      (callReported prepared location (commitPrelude location before).2) before := by
  unfold commitPreparedDirectory
  rw [wp_bind]
  unfold wp
  generalize commitPrelude location before = ended
  match ended with
  | (.ok guard, recovered) => exact commitRecovered_reports prepared location guard recovered
  | (.error error, recovered) => exact fun _ => rfl

/-- Where nothing fails, a commit over a distribution returns. -/
example : (commitPreparedDirectory ⟨[['s']], 2⟩ ⟨[], ['d']⟩
    { files      := [([], .directory 0 false), ([['d']], .directory 1 false),
        ([['s']], .directory 2 true)]
      counter    := 0
      process    := 0
      answers    := fun n => ⟨false, fun _ => false, n + 3, 0⟩
      unreadable := fun _ => false }).1.toOption = some .complete := by decide +kernel

end Xlfn.Distribution
