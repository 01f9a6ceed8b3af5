import LabelMail.Proofs.Mailroom.Following
import LabelMail.Proofs.Replica.Showing

/-!
What a retry brings about. If nothing fails any more, a retry empties the backlog. Of the messages
that were in it, the replica then shows what is stored; for one that the store lacks, the links on
record are made, and its row stays as it was.
-/
namespace LabelMail.Mailroom

open Replica (Rows)

variable {σ : Type} {room : Mailroom σ} {h : Holdings} {r r' : Replica} {b b' : Backlog}
variable {a : Arrear} {m : Message} {as : List Arrear} {R R₀ : Rows}

/-- What becomes of an entry when nothing fails. -/
theorem Turn.retry_cases (hturn : Turn h r b (.retry a) r' b') (hs : r.Sound) :
    (∃ m, h.find? a.messageId = some m ∧
        Settled a.messageId (Rows.Copied m (h.labelsOf m) r.rows) b r' b') ∨
      (a.messageId ∉ h.ids ∧
        Settled a.messageId (Rows.Relinked a.messageId a.labelIds r.rows) b r' b') := by
  cases hturn with
  | retried hid hturn =>
    cases hturn with
    | copied hfind hdone => exact .inl ⟨_, hfind, hdone⟩
    | uncopied hfind hdone => exact absurd hs hdone.unsound
    | removed hnone hdone => exact absurd hid hnone
    | refused hrefresh hrows hunsound => exact absurd hs hunsound
  | replayed hid hdone => exact .inr ⟨hid, hdone⟩
  | unreplayed hid hdone => exact absurd hs hdone.unsound
  | refused hrefresh hrows hunsound => exact absurd hs hunsound

/-- What the entries of a backlog have become in the rows. -/
structure Retrieved (h : Holdings) (R₀ : Rows) (as : List Arrear) (R : Rows) : Prop where
  mirrored : ∀ m ∈ h.messages, m.id ∈ as.map Arrear.messageId → R.Mirrors m (h.labelsOf m)
  rows : ∀ row : Row, row.id ∉ h.ids → (row ∈ R.messages ↔ row ∈ R₀.messages)
  links : ∀ a ∈ as, a.messageId ∉ h.ids → ∀ i, ⟨a.messageId, i⟩ ∈ R.links ↔ i ∈ a.labelIds

/-- An entry more, for a message that none of the others is for. -/
theorem Retrieved.retry (hret : Retrieved h R₀ as r.rows) (ho : h.Orderly) (hapart : h.Apart)
    (hk : r.rows.Kept h) (hs : r.Sound) (hfresh : a.messageId ∉ as.map Arrear.messageId)
    (hturn : Turn h r b (.retry a) r' b') : Retrieved h R₀ (as ++ [a]) r'.rows := by
  have hcases := hturn.retry_cases hs
  have hspares : Rows.Spares h a.messageId r.rows r'.rows := by
    rcases hcases with ⟨m, hfind, hdone⟩ | ⟨-, hdone⟩
    · obtain ⟨hm, hid⟩ := Holdings.mem_of_find? hfind
      exact hid ▸ hdone.rows.spares hk ho hapart hm
    · exact hdone.rows.spares hk
  refine ⟨fun m hm hmem => ?_, fun row hrow => ?_, fun x hx hlost i => ?_⟩
  · by_cases hid : m.id = a.messageId
    · rcases hcases with ⟨x, hfind, hdone⟩ | ⟨hlost, -⟩
      · obtain ⟨hx, hxid⟩ := Holdings.mem_of_find? hfind
        obtain rfl := Holdings.eq_of_id ho.ids hm hx (hid.trans hxid.symm)
        exact hdone.rows.mirrors hk ho hapart hm
      · exact absurd (Holdings.mem_ids.mpr ⟨m, hm, hid⟩) hlost
    · refine hspares.mirrors ho hm hid (hret.mirrored m hm ?_)
      rw [List.map_append, List.mem_append] at hmem
      exact hmem.resolve_right fun hlast => hid (List.mem_singleton.mp hlast)
  · rw [← hret.rows row hrow]
    by_cases hid : row.id = a.messageId
    · rcases hcases with ⟨x, hfind, -⟩ | ⟨-, hdone⟩
      · exact absurd (Holdings.mem_ids.mpr ⟨x, Holdings.mem_of_find? hfind⟩) (hid ▸ hrow)
      · rw [hdone.rows.messages]
    · exact hspares.messages row hid
  · rcases List.mem_append.mp hx with hx | hx
    · have hid : x.messageId ≠ a.messageId := fun heq => hfresh (heq ▸ List.mem_map_of_mem hx)
      exact (hspares.links ⟨x.messageId, i⟩ hid).trans (hret.links x hx hlost i)
    · obtain rfl := List.mem_singleton.mp hx
      rcases hcases with ⟨y, hfind, -⟩ | ⟨-, hdone⟩
      · exact absurd (Holdings.mem_ids.mpr ⟨y, Holdings.mem_of_find? hfind⟩) hlost
      · rw [hdone.rows.links, if_pos rfl]

/-- Retrying different entries one after the other settles them all. -/
theorem Tended.retrieved (ht : Tended h room) (hs : room.replica.Sound)
    (has : (as.map Arrear.messageId).Nodup) :
    Tended h (room.done (as.map .retry)) ∧ (room.done (as.map .retry)).replica.Sound ∧
      Retrieved h room.replica.rows as (room.done (as.map .retry)).replica.rows ∧
      (room.done (as.map .retry)).backlog = room.backlog.resolveAll (as.map Arrear.messageId) := by
  induction as using List.reverseRec with
  | nil =>
    refine ⟨ht, hs, ⟨fun m _ hmem => ?_, fun _ _ => Iff.rfl, fun a ha => ?_⟩, rfl⟩
    · exact (List.not_mem_nil hmem).elim
    · exact (List.not_mem_nil ha).elim
  | append_singleton as a ih =>
    rw [List.map_append, List.nodup_append_comm] at has
    obtain ⟨hfresh, hrest⟩ := List.nodup_cons.mp has
    obtain ⟨ht', hs', hret, hbacklog⟩ := ih hrest
    have hturns := run_turns ht' (.retry a)
    have hdone : room.done ((as ++ [a]).map .retry) =
        (room.done (as.map .retry)).run (.retry a) := by
      rw [List.map_append, done_append]
      rfl
    rw [hdone]
    refine ⟨ht'.run trivial, hs'.later hturns.2,
      hret.retry ht'.orderly ht'.apart ht'.kept hs' hfresh hturns.1, ?_⟩
    have hresolved : ((room.done (as.map .retry)).run (.retry a)).backlog =
        ((room.done (as.map .retry)).backlog.resolve a.messageId).1 := by
      rcases hturns.1.retry_cases hs' with ⟨m, -, hset⟩ | ⟨-, hset⟩
      · exact hset.backlog
      · exact hset.backlog
    rw [hresolved, hbacklog, List.map_append]
    exact Backlog.resolveAll_concat.symm

/-- The next call is a retry, and nothing fails in the replica from here on. -/
theorem Followed.retried (hf : room.Followed) (hs : room.replica.Sound) (caller : String)
    (now : Int) :
    Tended room.holdings (room.step ⟨caller, now, .retryPending⟩) ∧
      (room.step ⟨caller, now, .retryPending⟩).replica.Sound ∧
      Retrieved room.holdings room.replica.rows room.backlog.arrears
        (room.step ⟨caller, now, .retryPending⟩).replica.rows ∧
      (room.step ⟨caller, now, .retryPending⟩).backlog = Backlog.empty := by
  have hstep : room.step ⟨caller, now, .retryPending⟩ =
      (room.atTime now).done (room.backlog.arrears.map .retry) := by
    refine of_state (P := (· = _)) (Ends.map ?_)
    exact (retryPending_ends (room.atTime now)).mono (fun _ _ h => h) fun _ _ he => he.elim
  rw [hstep, ← Backlog.resolveAll_arrears room.backlog]
  exact Tended.retrieved (hf.atTime now).tended hs hf.ascending.nodup

/-- What a retry makes of the backlog. Of each message that was in it and is stored, the replica
then shows what is stored; of one that the store lacks, the row stays as it was, and the links are
those on record. -/
structure Reconciled (before retried : Mailroom σ) : Prop where
  backlog : retried.backlog = Backlog.empty
  holdings : retried.holdings = before.holdings
  stored : ∀ a ∈ before.backlog.arrears, ∀ m, before.holdings.find? a.messageId = some m →
    ∃ copy r, Replica.find a.messageId retried.replica = .ok (some copy) r ∧ copy.message = m
  lacking : ∀ a ∈ before.backlog.arrears, before.holdings.find? a.messageId = none →
    (∀ row : Row, row.id = a.messageId →
      (row ∈ retried.replica.rows.messages ↔ row ∈ before.replica.rows.messages)) ∧
    ∀ i, ⟨a.messageId, i⟩ ∈ retried.replica.rows.links ↔ i ∈ a.labelIds

/-- A retry in which nothing fails reconciles the replica with the primary store, after any run. -/
theorem retry_converges (room : Mailroom σ) (hb : room.Blank) (hsound : room.primary.Sound)
    (hsupply : Supply room.idAt) (events : List Event) (caller : String) (now : Int)
    (hs : (room.after events).replica.Sound) :
    Reconciled (room.after events) ((room.after events).step ⟨caller, now, .retryPending⟩) := by
  obtain ⟨hf, -⟩ := (hb.followed hsound).after hsupply events
  obtain ⟨ht, hs', hret, hbacklog⟩ := hf.retried hs caller now
  refine ⟨hbacklog, holdings_eq ht.shows ht.orderly, fun a ha m hfind => ?_, fun a ha hnone => ?_⟩
  · obtain ⟨hm, hid⟩ := Holdings.mem_of_find? hfind
    have hmem : m.id ∈ (room.after events).backlog.arrears.map Arrear.messageId :=
      hid ▸ List.mem_map_of_mem ha
    have hmirrors := (hret.mirrored m hm hmem).copy? ht.kept ht.orderly hm
    rw [hid] at hmirrors
    exact Replica.find_of_copy? hs' hmirrors
  · have hid : a.messageId ∉ (room.after events).holdings.ids := Holdings.find?_eq_none.mp hnone
    exact ⟨fun row hrow => hret.rows row (hrow ▸ hid), hret.links a ha hid⟩

/-- The sample mailroom with a replica that, in its first `n` statements, neither links the tag for
starred messages nor deletes the first message. -/
def recovering (n : Nat) : Mailroom Unit :=
  { sample with
    replica :=
      { database :=
          { rows := Rows.empty
            plan := fun k ws =>
              if k < n ∧ (.insertLink "starred" ∈ ws ∨ .deleteMessage "u" ∈ ws) then some .broken
              else none
            count := 0 }
        version := 0 } }

theorem blank_recovering (n : Nat) : (recovering n).Blank := ⟨⟨rfl, rfl⟩, rfl, rfl⟩

/-- Once it has made so many statements, it is sound. -/
theorem sound_recovering {n : Nat} {events : List Event}
    (hcount : n ≤ ((recovering n).after events).replica.database.count) :
    ((recovering n).after events).replica.Sound := by
  intro k ws hk
  have hlater := ((blank_recovering n).followed (fun _ _ _ => rfl)).after supply_sample events
  rw [hlater.2.2.plan]
  exact if_neg fun hearly => Nat.not_lt.mpr (Nat.le_trans hcount hk) hearly.1

/-- A delivery that the recipient stars. -/
def starredDelivery : List Event :=
  [⟨"alice", 0, .send ⟨some "bob", some "s", some "c"⟩ false⟩,
    ⟨"bob", 0, .flipStar "u"⟩]

theorem retry_converges_starred :
    (recovering 24).Blank ∧ (recovering 24).primary.Sound ∧ Supply (recovering 24).idAt ∧
      ((recovering 24).after starredDelivery).replica.Sound ∧
      ((recovering 24).after starredDelivery).backlog.holds "u" = true ∧
      Reconciled ((recovering 24).after starredDelivery)
        (((recovering 24).after starredDelivery).step ⟨"bob", 0, .retryPending⟩) := by
  have hsound : (recovering 24).primary.Sound := fun _ _ _ => rfl
  have hs : ((recovering 24).after starredDelivery).replica.Sound :=
    sound_recovering (by decide +kernel)
  have hpending : ((recovering 24).after starredDelivery).backlog.holds "u" = true := by
    decide +kernel
  exact ⟨blank_recovering 24, hsound, supply_sample, hs, hpending,
    retry_converges _ (blank_recovering 24) hsound supply_sample starredDelivery "bob" 0 hs⟩

/-- The delivery is deleted before the star has reached the replica. What a retry brings to the
replica is a part of a message that is no longer stored. -/
theorem kept_after_retry :
    let before := (recovering 27).after (starredDelivery ++ [⟨"bob", 0, .delete "u"⟩])
    let retried := before.step ⟨"bob", 0, .retryPending⟩
    (recovering 27).Blank ∧ (recovering 27).primary.Sound ∧ before.replica.Sound ∧
      before.backlog.holds "u" = true ∧ before.holdings.find? "u" = none ∧
      retried.replica.rows.copy? "u" ≠ none ∧ ⟨"u", "starred"⟩ ∈ retried.replica.rows.links := by
  intro before retried
  refine ⟨blank_recovering _, fun _ _ _ => rfl, sound_recovering ?_, ?_, ?_, ?_, ?_⟩
  all_goals decide +kernel

end LabelMail.Mailroom
