import LabelMail.Proofs.Convergence
import LabelMail.Proofs.Isolation
import LabelMail.Proofs.Mailroom.Syncing

/-!
What a synchronization brings about. Whatever failed before, a synchronization in which nothing
fails makes the replica list the owner's mailbox as it is stored, and it tells how many messages
were copied and how many had been deleted since. A second one finds nothing to do.
-/
namespace LabelMail.Mailroom

variable {σ : Type} {room : Mailroom σ} {g : Owners} {h : Holdings} {owner other : String}
variable {report : Report} {now : Int}

/-- How many messages the store has of an owner. -/
def owned (room : Mailroom σ) (owner : String) : Nat :=
  room.primary.rows.messages.countP (·.ownerId == owner)

/-- How many rows of an owner the replica has for messages that the store lacks. -/
def stray (room : Mailroom σ) (owner : String) : Nat :=
  room.replica.rows.messages.countP fun row =>
    row.ownerId == owner && !Primary.hasMessage room.primary.rows row.id

theorem length_mailbox (hs : room.primary.rows.Shows h) :
    (h.mailbox owner).length = room.owned owner := by
  rw [Holdings.mailbox, (sortBy_perm _).length_eq, owned, List.countP_eq_length_filter,
    rows_filter_owner hs, List.length_map]

theorem length_lostRows (hs : room.primary.rows.Shows h) :
    (lostRows h owner room.replica.rows).length = room.stray owner := by
  have hstored (row : Row) :
      h.ids.contains row.id = Primary.hasMessage room.primary.rows row.id := by
    rw [Bool.eq_iff_iff, List.contains_iff_mem, hs.hasMessage]
  simp only [stray, lostRows, List.countP_eq_length_filter, hstored]

/-- The synchronization of an owner's mailbox has repaired the replica. -/
structure Repaired (owner : String) (before synced : Mailroom σ) (report : Report) : Prop where
  holdings : synced.holdings = before.holdings
  listings : ∃ ms db r, Primary.messagesOf owner synced.primary = .ok ms db ∧
    Replica.messagesOf owner synced.replica = .ok ms r
  others : ∀ other, other ≠ owner → ∃ ms r r',
    Replica.messagesOf other before.replica = .ok ms r ∧
    Replica.messagesOf other synced.replica = .ok ms r'
  report : report = ⟨before.owned owner, before.stray owner, 0⟩

/-- A call for a synchronization in which nothing fails. -/
structure Synchronizes (owner : String) (room : Mailroom σ) (now : Int) (report : Report)
    (mid : Mailroom σ) (stale : List String) : Prop where
  outcome : room.outcome ⟨owner, now, .synchronize⟩ = some (.report report)
  synced : Synced room.holdings owner (room.atTime now) report mid stale
    (room.step ⟨owner, now, .synchronize⟩)

theorem Governed.synchronizes (hg : Governed g room.holdings room) (hp : room.primary.Sound)
    (hs : room.replica.Sound) (owner : String) (now : Int) :
    ∃ report mid stale, Synchronizes owner room now report mid stale := by
  have ht : Tended room.holdings (room.atTime now) := (hg.atTime now).tended hp
  have hends : Ends (perform owner .synchronize (room.atTime now))
      (fun o room' => ∃ report, o = .report report ∧
        ∃ mid stale, Synced room.holdings owner (room.atTime now) report mid stale room')
      (fun _ _ => False) :=
    Ends.map ((synchronize_succeeds ht hs owner).mono (fun report _ hr => ⟨report, rfl, hr⟩)
      fun _ _ he => he)
  obtain ⟨hok, hfailed⟩ := step_of_ends (e := ⟨owner, now, .synchronize⟩) hends
  cases ho : room.outcome ⟨owner, now, .synchronize⟩ with
  | none =>
    obtain ⟨-, hfalse⟩ := hfailed ho
    exact hfalse.elim
  | some o =>
    obtain ⟨report, rfl, mid, stale, hsynced⟩ := hok o ho
    exact ⟨report, mid, stale, ho, hsynced⟩

variable {mid : Mailroom σ} {stale : List String}

theorem Synchronizes.governed (hsync : Synchronizes owner room now report mid stale)
    (hg : Governed g room.holdings room) : Governed g room.holdings mid :=
  (hg.atTime now).rests hsync.synced.begun

theorem Synchronizes.sound_mid (hsync : Synchronizes owner room now report mid stale)
    (hs : room.replica.Sound) : mid.replica.Sound := by
  rw [hsync.synced.begun.replica]
  exact hs

theorem Synchronizes.tended_mid (hsync : Synchronizes owner room now report mid stale)
    (hg : Governed g room.holdings room) (hp : room.primary.Sound) : Tended room.holdings mid :=
  ((hg.atTime now).tended hp).rests hsync.synced.begun

/-- Afterwards all is as it was before, but that the replica is complete. -/
theorem Synchronizes.done (hsync : Synchronizes owner room now report mid stale)
    (hg : Governed g room.holdings room) (hp : room.primary.Sound) (hs : room.replica.Sound) :
    let synced := room.step ⟨owner, now, .synchronize⟩
    synced.holdings = room.holdings ∧ Governed g synced.holdings synced ∧
      synced.primary.Sound ∧ synced.replica.Sound ∧
      synced.replica.rows.Complete synced.holdings owner := by
  intro synced
  have hgmid : Governed g room.holdings mid := hsync.governed hg
  have htmid : Tended room.holdings mid := hsync.tended_mid hg hp
  have hsmid : mid.replica.Sound := hsync.sound_mid hs
  have hdone : Governed g room.holdings synced := hsync.synced.governed hgmid
  have hstate : synced = mid.done (syncTasks room.holdings owner stale) := hsync.synced.done
  have hholdings : synced.holdings = room.holdings := holdings_eq hdone.shows hdone.orderly
  refine ⟨hholdings, hholdings.symm ▸ hdone, ?_, ?_, ?_⟩
  · rw [hstate]
    exact (htmid.done (fits_syncTasks stale)).sound
  · rw [hstate]
    exact htmid.sound_done hsmid (fits_syncTasks stale)
  · rw [hholdings]
    exact hsync.synced.complete hgmid htmid hsmid

/-- What the others have in the replica is listed as before. -/
theorem Governed.others_synchronize (hg : Governed g room.holdings room)
    (hsupply : Supply room.idAt) (hp : room.primary.Sound) (hs : room.replica.Sound)
    (now : Int) (hne : other ≠ owner) :
    ∃ ms r r', Replica.messagesOf other room.replica = .ok ms r ∧
      Replica.messagesOf other (room.step ⟨owner, now, .synchronize⟩).replica = .ok ms r' := by
  have hisolated : Isolated other [] room (room.step ⟨owner, now, .synchronize⟩) :=
    hg.isolated (e := ⟨owner, now, .synchronize⟩) hsupply hp hs (by simp) hne
  obtain ⟨ms, r, ms', r', hlist, hlist', hsublist, hperm⟩ := hisolated.listings
  obtain rfl := hsublist.eq_of_length hperm.length_eq.symm
  exact ⟨ms, r, r', hlist, hlist'⟩

theorem Synchronizes.repaired (hsync : Synchronizes owner room now report mid stale)
    (hg : Governed g room.holdings room) (hsupply : Supply room.idAt) (hp : room.primary.Sound)
    (hs : room.replica.Sound) :
    Repaired owner room (room.step ⟨owner, now, .synchronize⟩) report := by
  obtain ⟨hholdings, hg', hp', hs', hcomplete⟩ := hsync.done hg hp hs
  refine ⟨hholdings, ?_, fun other hne => hg.others_synchronize hsupply hp hs now hne, ?_⟩
  · obtain ⟨db, hprimary⟩ := (hg'.tended hp').messagesOf owner
    obtain ⟨r, hreplica⟩ := Replica.messagesOf_of_complete hcomplete hg'.kept hg'.orderly hs'
    exact ⟨_, db, r, hprimary, hreplica⟩
  · rw [hsync.synced.report_eq (hsync.governed hg), length_mailbox hg.shows]
    exact congrArg (Report.mk _ · 0) (length_lostRows hg.shows)

/-- Of a mailbox that is complete already. -/
theorem Synchronizes.unchanged (hsync : Synchronizes owner room now report mid stale)
    (hg : Governed g room.holdings room) (hp : room.primary.Sound) (hs : room.replica.Sound)
    (hcomplete : room.replica.rows.Complete room.holdings owner) :
    report.removed = 0 ∧
      room.replica.rows.Unchanged (room.step ⟨owner, now, .synchronize⟩).replica.rows := by
  obtain ⟨hlost, hsame⟩ := hsync.synced.unchanged (hsync.governed hg) (hsync.tended_mid hg hp)
    (hsync.sound_mid hs) hcomplete
  rw [hsync.synced.report_eq (hsync.governed hg), hlost]
  exact ⟨rfl, hsame⟩

/-- After any run, a synchronization in which nothing fails succeeds and repairs the replica, and
another one right after it changes nothing. -/
theorem synchronize_repairs (room : Mailroom σ) (hb : room.Blank) (hsupply : Supply room.idAt)
    (events : List Event) (owner : String) (now now' : Int)
    (hp : (room.after events).primary.Sound) (hs : (room.after events).replica.Sound) :
    let before := room.after events
    let synced := before.step ⟨owner, now, .synchronize⟩
    let again := synced.step ⟨owner, now', .synchronize⟩
    ∃ report report', before.outcome ⟨owner, now, .synchronize⟩ = some (.report report) ∧
      Repaired owner before synced report ∧
      synced.outcome ⟨owner, now', .synchronize⟩ = some (.report report') ∧
      report'.removed = 0 ∧ synced.replica.rows.Unchanged again.replica.rows ∧
      again.holdings = synced.holdings := by
  intro before synced again
  obtain ⟨g₀, hg₀⟩ := hb.governed
  obtain ⟨⟨g, hg⟩, hsupply'⟩ := hg₀.after hsupply events
  obtain ⟨report, mid, stale, hsync⟩ := hg.synchronizes hp hs owner now
  obtain ⟨-, hg', hp', hs', hcomplete⟩ := hsync.done hg hp hs
  obtain ⟨report', mid', stale', hsync'⟩ := hg'.synchronizes hp' hs' owner now'
  obtain ⟨hremoved, hsame⟩ := hsync'.unchanged hg' hp' hs' hcomplete
  obtain ⟨hholdings, -⟩ := hsync'.done hg' hp' hs'
  exact ⟨report, report', hsync.outcome, hsync.repaired hg hsupply' hp hs, hsync'.outcome,
    hremoved, hsame, hholdings⟩

/-- The starred delivery is deleted, and another one is starred. -/
def driftingDeliveries : List Event :=
  starredDelivery ++
    [⟨"bob", 0, .delete "u"⟩,
      ⟨"alice", 0, .send ⟨some "bob", some "s", some "c"⟩ false⟩,
      ⟨"bob", 0, .flipStar "uuu"⟩]

/-- The replica still has the first of them, and knows of no star on the second. -/
theorem synchronize_repairs_drifting :
    let before := (recovering 51).after driftingDeliveries
    let synced := before.step ⟨"bob", 0, .synchronize⟩
    let again := synced.step ⟨"bob", 0, .synchronize⟩
    (recovering 51).Blank ∧ Supply (recovering 51).idAt ∧ before.primary.Sound ∧
      before.replica.Sound ∧ before.owned "bob" = 1 ∧ before.stray "bob" = 1 ∧
      ⟨"uuu", "starred"⟩ ∉ before.replica.rows.links ∧
      ∃ report report', before.outcome ⟨"bob", 0, .synchronize⟩ = some (.report report) ∧
        Repaired "bob" before synced report ∧
        synced.outcome ⟨"bob", 0, .synchronize⟩ = some (.report report') ∧
        report'.removed = 0 ∧ synced.replica.rows.Unchanged again.replica.rows ∧
        again.holdings = synced.holdings := by
  intro before synced again
  have hb : (recovering 51).Blank := blank_recovering 51
  have hp : before.primary.Sound :=
    ((hb.followed fun _ _ _ => rfl).after supply_sample driftingDeliveries).1.tended.sound
  have hs : before.replica.Sound := sound_recovering (by decide +kernel)
  refine ⟨hb, supply_sample, hp, hs, ?_, ?_, ?_,
    synchronize_repairs _ hb supply_sample driftingDeliveries "bob" 0 0 hp hs⟩
  all_goals decide +kernel

end LabelMail.Mailroom
