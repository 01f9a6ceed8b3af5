import LabelMail.Proofs.Mailroom.OperationPairs

/-!
What a user is told. Two mailrooms that agree on what the caller has answer the caller's requests in
the same way, one after the other, and still agree afterwards, whatever else they hold. So a message
of another user's is answered as one that there is not.
-/
namespace LabelMail

namespace Mailroom

variable {σ : Type} {room room' : Mailroom σ} {owner : String} {m : Message}

theorem Blank.ready_after (hb : room.Blank) (hsupply : Supply room.idAt) (events : List Event)
    (hs : (room.after events).Sound) : (room.after events).Ready := by
  obtain ⟨g, hg⟩ := hb.governed
  obtain ⟨hgoverned, hsupply'⟩ := hg.after hsupply events
  exact ⟨hgoverned, hs, hsupply'⟩

theorem SameFor.atTime (hsame : SameFor owner room room') (now : Int) :
    SameFor owner (room.atTime now) (room'.atTime now) :=
  ⟨hsame.primary, hsame.replica, hsame.backlog, hsame.keeping, hsame.outside, hsame.rules,
    hsame.idAt, hsame.drawn⟩

theorem Ready.delete_ends (hr : room.Ready) (hm : m ∈ room.holdings.messages) :
    Ends (delete m.ownerId m.id room)
      (fun _ room' => m.id ∉ room'.holdings.ids ∧
        ∀ owner, m.ownerId ≠ owner → owner ≠ Replica.shared → SameFor owner room room')
      (fun _ _ => False) := by
  obtain ⟨g, hg⟩ := hr.governed
  have hdelete : Ends (onPrimary (Primary.deleteOwn m.id m.ownerId) room)
      (fun _ mid => Wrote m.ownerId room.holdings [.discard m.id] room mid ∧
        ∀ owner, m.ownerId ≠ owner → SameFor owner room mid) (fun _ _ => False) := by
    refine (onPrimary_ends room ((Primary.deleteOwn_ends m.id m.ownerId hg.shows hg.orderly).both
      (Primary.deleteOwn_aside m.id m.ownerId))).mono ?_ ?_
    · rintro _ _ ⟨db, ⟨⟨hown, hshows, hlater⟩, haside⟩, rfl⟩
      refine ⟨wrote_primary (fun _ => ⟨hown, trivial⟩) hshows hlater, fun owner hne => ?_⟩
      exact ⟨haside owner hne, .refl owner _ room.replica.rows, rfl, rfl, rfl, rfl, rfl, rfl⟩
    · rintro _ _ ⟨db, ⟨⟨-, -, hnone⟩, -⟩, rfl⟩
      exact hnone hr.sound.primary m hm ⟨rfl, rfl⟩
  refine hdelete.bind (fun _ mid hmid => ?_) fun _ _ he => he
  obtain ⟨hw, haside⟩ := hmid
  obtain ⟨g', hextends, hg'⟩ := hg.written hr.supply hw
  have hserves : (Task.refresh m.id).Serves g' (room.holdings.after [.discard m.id]) m.ownerId :=
    hextends.message (hg.covers.messages m hm)
  refine (refreshQuietly_ends m.id).mono (fun _ room' hroom' => ?_) fun _ _ he => he
  subst hroom'
  refine ⟨fun hmem => ?_, fun owner hne hnamed => (haside owner hne).trans <|
    hg'.aside (hr.sound.ahead hw.toAhead) hserves hne hnamed⟩
  rw [hw.done_holdings hg.orderly] at hmem
  obtain ⟨x, hx, hid⟩ := Holdings.mem_ids.mp hmem
  exact bne_iff_ne.mp (List.mem_filter.mp hx).2 hid

/-- When the owner of a message deletes it, nothing changes for anybody else. -/
theorem Ready.deleted (hr : room.Ready) (hm : m ∈ room.holdings.messages) (now : Int) :
    m.id ∉ (room.step ⟨m.ownerId, now, .delete m.id⟩).holdings.ids ∧
      ∀ owner, m.ownerId ≠ owner → owner ≠ Replica.shared →
        SameFor owner room (room.step ⟨m.ownerId, now, .delete m.id⟩) := by
  have hdelete : Ends (delete m.ownerId m.id (room.atTime now))
      (fun _ s => m.id ∉ s.holdings.ids ∧ ∀ owner, m.ownerId ≠ owner → owner ≠ Replica.shared →
        SameFor owner (room.atTime now) s)
      (fun _ s => m.id ∉ s.holdings.ids ∧ ∀ owner, m.ownerId ≠ owner → owner ≠ Replica.shared →
        SameFor owner (room.atTime now) s) :=
    ((hr.atTime now).delete_ends hm).mono (fun _ _ h => h) fun _ _ he => he.elim
  obtain ⟨hgone, haside⟩ := of_state (Ends.map hdelete (g := fun _ => Outcome.done))
  refine ⟨hgone, fun owner hne hnamed => ?_⟩
  have hsame := haside owner hne hnamed
  exact ⟨hsame.primary, hsame.replica, hsame.backlog, hsame.keeping, hsame.outside, hsame.rules,
    hsame.idAt, hsame.drawn⟩

end Mailroom

namespace Web

open Mailroom

variable {σ : Type} {room room' : Mailroom σ} {caller : String} {r : Request}

/-- The responses to requests one after the other, each at its time in milliseconds, and the
mailroom afterwards. -/
def answers : List (Int × Request) → Mailroom σ → List Response × Mailroom σ
  | [], room => ([], room)
  | (now, r) :: rest, room =>
    let (response, room) := handle r (room.atTime now)
    let (responses, room) := answers rest room
    (response :: responses, room)

/-- The request is the caller's own, and it is not for the retry of what is owed to all users. -/
structure Request.SentBy (r : Request) (caller : String) : Prop where
  user : r.caller = some caller
  alone : r.operation ≠ .ok (caller, .retryPending)

instance : Decidable (r.SentBy caller) :=
  decidable_of_iff (r.caller = some caller ∧ r.operation ≠ .ok (caller, .retryPending))
    ⟨fun h => ⟨h.1, h.2⟩, fun h => ⟨h.user, h.alone⟩⟩

theorem Request.SentBy.named (hr : r.SentBy caller) : caller ≠ Replica.shared := by
  have hfilter := Option.filter_eq_some_iff.mp hr.user
  rintro rfl
  exact absurd hfilter.2 (by decide)

theorem exists_of_bind_ok {ε α β : Type} {x : Except ε α} {f : α → Except ε β} {b : β}
    (h : (x >>= f) = .ok b) : ∃ a, f a = .ok b := by
  cases x with
  | ok a => exact ⟨a, h⟩
  | error e => cases h

theorem caller_of_operation {op : Operation} (hop : r.operation = .ok (caller, op)) :
    r.caller = some caller := by
  unfold Request.operation at hop
  split at hop
  · next user huser =>
    obtain ⟨segments, hop⟩ := exists_of_bind_ok hop
    split at hop
    · cases hop
    · split at hop
      · obtain ⟨asked, hop⟩ := exists_of_bind_ok hop
        cases hop
        exact huser
      · cases hop
  · cases hop

/-- A request changes the mailroom by one call at most. -/
theorem handle_step (r : Request) (now : Int) (room : Mailroom σ) :
    (handle r (room.atTime now)).2 = room.atTime now ∨
      ∃ e, (handle r (room.atTime now)).2 = room.step e := by
  unfold handle
  cases r.operation with
  | error e => exact .inl rfl
  | ok q =>
    obtain ⟨caller, op⟩ := q
    refine .inr ⟨⟨caller, now, op⟩, ?_⟩
    unfold Mailroom.step
    dsimp only
    cases perform caller op (room.atTime now) with
    | ok o s => rfl
    | error e s => rfl

theorem ready_handle (hr : room.Ready) (r : Request) (now : Int) :
    (handle r (room.atTime now)).2.Ready := by
  rcases handle_step r now room with hidle | ⟨e, hstep⟩
  · rw [hidle]
    exact hr.atTime now
  · rw [hstep]
    exact hr.step e

theorem handle_same (hm : Matched caller room room') (hr : r.SentBy caller) :
    (handle r room).1 = (handle r room').1 ∧
      SameFor caller (handle r room).2 (handle r room').2 := by
  unfold handle
  cases hop : r.operation with
  | error e => exact ⟨rfl, hm.same⟩
  | ok q =>
    obtain ⟨user, op⟩ := q
    obtain rfl : user = caller :=
      Option.some.inj ((caller_of_operation hop).symm.trans hr.user)
    have hperform := hm.perform_same op fun hretry => hr.alone (hretry ▸ hop)
    dsimp only
    generalize perform user op room = result at hperform ⊢
    generalize perform user op room' = result' at hperform ⊢
    cases hperform with
    | ok h => exact h
    | error h => exact ⟨rfl, h⟩

theorem answers_same {requests : List (Int × Request)} (hsame : SameFor caller room room')
    (hroom : room.Ready) (hroom' : room'.Ready) (hsent : ∀ q ∈ requests, q.2.SentBy caller) :
    (answers requests room).1 = (answers requests room').1 ∧
      SameFor caller (answers requests room).2 (answers requests room').2 := by
  induction requests generalizing room room' with
  | nil => exact ⟨rfl, hsame⟩
  | cons q rest ih =>
    obtain ⟨now, r⟩ := q
    have hr : r.SentBy caller := hsent (now, r) List.mem_cons_self
    have hm : Matched caller (room.atTime now) (room'.atTime now) :=
      ⟨hsame.atTime now, hroom.atTime now, hroom'.atTime now, rfl, hr.named⟩
    obtain ⟨hresponse, hfirst⟩ := handle_same hm hr
    obtain ⟨hresponses, hrest⟩ := ih hfirst (ready_handle hroom r now) (ready_handle hroom' r now)
      fun q hq => hsent q (List.mem_cons_of_mem _ hq)
    exact ⟨congrArg₂ List.cons hresponse hresponses, hrest⟩

/-- The responses to a caller's requests, and what they leave of the caller's, depend on nothing
that others have. In particular another user's message makes no difference to them: they are what they
would be if its owner had deleted it before. -/
theorem answers_confidential (room : Mailroom σ) (hb : room.Blank) (hsupply : Supply room.idAt)
    (events : List Event) (hs : (room.after events).Sound) (caller : String)
    (requests : List (Int × Request)) (hsent : ∀ q ∈ requests, q.2.SentBy caller) :
    (∀ (room' : Mailroom σ) (events' : List Event), room'.Blank → (room'.after events').Sound →
      SameFor caller (room.after events) (room'.after events') →
      (answers requests (room.after events)).1 = (answers requests (room'.after events')).1 ∧
        SameFor caller (answers requests (room.after events)).2
          (answers requests (room'.after events')).2) ∧
    ∀ m ∈ (room.after events).holdings.messages, m.ownerId ≠ caller → ∀ now : Int,
      let gone := (room.after events).step ⟨m.ownerId, now, .delete m.id⟩
      m.id ∉ gone.holdings.ids ∧
        (answers requests (room.after events)).1 = (answers requests gone).1 := by
  have hready : (room.after events).Ready := hb.ready_after hsupply events hs
  refine ⟨fun room' events' hb' hs' hsame => ?_, fun m hm hne now => ?_⟩
  · have hsupply' : Supply room'.idAt := by
      rw [← (hb'.orderly.fixed_after events').idAt, hsame.idAt]
      exact hready.supply
    exact answers_same hsame hready (hb'.ready_after hsupply' events' hs') hsent
  · intro gone
    obtain ⟨hgone, haside⟩ := hready.deleted hm now
    refine ⟨hgone, ?_⟩
    cases requests with
    | nil => rfl
    | cons q rest =>
      have hnamed : caller ≠ Replica.shared := (hsent q List.mem_cons_self).named
      exact (answers_same (haside caller hne hnamed) hready (hready.step _) hsent).1

/-- Alice writes to Bob, who labels what he got, and keeps a draft of her own. -/
def keptDraft (subject : String) : List Event :=
  [⟨"alice", 0, .send ⟨some "bob", some "s", some "c"⟩ false⟩,
    ⟨"bob", 0, .changeLabel "u" ⟨some "deals", .add⟩⟩,
    ⟨"alice", 0, .saveDraft ⟨some "bob", some subject, some "c"⟩⟩]

def ofBob (method path : String) : Int × Request :=
  (0, ⟨method, path, none, some "bob", .bytes []⟩)

/-- Bob asks for the draft, stars his message and synchronizes. -/
def curiousRequests : List (Int × Request) :=
  [ofBob "GET" "/mails/uuuu", ofBob "PATCH" "/mails/u/star", ofBob "POST" "/sync"]

theorem sameFor_keptDraft :
    SameFor "bob" (sample.after (keptDraft "s")) (sample.after (keptDraft "t")) := by
  have hfixed (events : List Event) : sample.Fixed (sample.after events) :=
    blank_sample.orderly.fixed_after events
  refine ⟨⟨?_, ?_, ?_, ?_⟩, ⟨?_, ?_, ?_⟩, ?_, ?_, Subsingleton.elim _ _, ?_, ?_, ?_⟩
  case refine_9 => rw [(hfixed _).keeping, (hfixed _).keeping]
  case refine_10 => rw [(hfixed _).rules, (hfixed _).rules]
  case refine_11 => rw [(hfixed _).idAt, (hfixed _).idAt]
  all_goals decide +kernel

/-- Bob cannot tell which subject Alice's draft has, or whether it is there at all. -/
theorem answers_confidential_draft :
    let room := sample.after (keptDraft "s")
    let other := sample.after (keptDraft "t")
    let gone := room.step ⟨"alice", 0, .delete "uuuu"⟩
    sample.Blank ∧ Supply sample.idAt ∧ room.Sound ∧ other.Sound ∧ SameFor "bob" room other ∧
      (∀ q ∈ curiousRequests, q.2.SentBy "bob") ∧
      room.holdings.messages ≠ other.holdings.messages ∧
      (answers curiousRequests room).1.map (·.status) = [404, 200, 200] ∧
      (answers curiousRequests room).1 = (answers curiousRequests other).1 ∧
      SameFor "bob" (answers curiousRequests room).2 (answers curiousRequests other).2 ∧
      "uuuu" ∈ room.holdings.ids ∧ "uuuu" ∉ gone.holdings.ids ∧
      (answers curiousRequests room).1 = (answers curiousRequests gone).1 := by
  intro room other gone
  have hs (events : List Event) : (sample.after events).Sound :=
    ⟨(sound_sample events).1, (sound_sample events).2⟩
  have hsent : ∀ q ∈ curiousRequests, q.2.SentBy "bob" := by decide +kernel
  obtain ⟨hothers, hforeign⟩ := answers_confidential sample blank_sample supply_sample
    (keptDraft "s") (hs _) "bob" curiousRequests hsent
  obtain ⟨hsame, hafter⟩ := hothers sample (keptDraft "t") blank_sample (hs _)
    sameFor_keptDraft
  obtain ⟨m, hm, hid, howner⟩ :
      ∃ m ∈ room.holdings.messages, m.id = "uuuu" ∧ m.ownerId = "alice" := by decide +kernel
  have hne : m.ownerId ≠ "bob" := howner ▸ by decide
  obtain ⟨hgone, htold⟩ := hforeign m hm hne 0
  rw [hid, howner] at hgone htold
  refine ⟨blank_sample, supply_sample, hs _, hs _, sameFor_keptDraft, hsent,
    ?_, ?_, hsame, hafter, ?_, hgone, htold⟩
  all_goals decide +kernel

end Web

end LabelMail
