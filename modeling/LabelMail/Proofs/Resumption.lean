import LabelMail.Proofs.Divergence
import LabelMail.Proofs.Mailroom.Errands
import LabelMail.Proofs.Replica.Relinking

/-!
Replacing the links of a message, as often as it takes. A replacement that went through is exact,
and to make it again changes nothing. One that was interrupted while it made the links says how far
it got, and its labels are in the backlog. After any number of failures the replacement ends, when
it goes through, in the rows to which it would have led at once.
-/
namespace LabelMail

namespace Replica

/-- In the place of its old links the message has links to these labels, in this order. Each label
asked for is there, and labels were only added where there was none of the id. -/
structure Rows.Replaced (id : String) (labelIds linked : List String) (R R' : Rows) : Prop where
  links : R'.links.filter (·.messageId == id) = linked.map (Link.mk id)
  others : R'.links.filter (·.messageId != id) = R.links.filter (·.messageId != id)
  messages : R'.messages = R.messages
  kept : R.labels <+: R'.labels
  known : ∀ i ∈ labelIds, ∃ l ∈ R'.labels, l.id = i
  added : ∀ l ∈ R'.labels, l ∈ R.labels ∨ l.id ∈ labelIds ∧ ∀ k ∈ R.labels, k.id ≠ l.id

variable {r : Replica} {R R' : Rows} {id owner i : String} {labelIds linked : List String}

theorem Rows.replaced_linkOnly (linked : List String) :
    Replaced id labelIds linked R
      ((R.enterAll owner (R.unknown labelIds)).linkOnly id linked) where
  links := by
    simp [linkOnly, enterAll, List.filter_append, List.filter_eq_self.mpr]
  others := by
    simp [linkOnly, enterAll, List.filter_append]
  messages := rfl
  kept := List.prefix_append _ _
  known i hi := by
    have hknown : hasLabel (R.enterAll owner (R.unknown labelIds)) i = true :=
      known_enterAll_unknown hi
    obtain ⟨l, hl, hli⟩ := List.any_eq_true.mp hknown
    exact ⟨l, hl, by simpa using hli⟩
  added l hl := by
    rcases List.mem_append.mp hl with hl | hl
    · exact .inl hl
    · obtain ⟨i, hi, rfl⟩ := List.mem_map.mp hl
      obtain ⟨hi, hfree⟩ := List.mem_filter.mp hi
      rw [placeholder_id]
      refine .inr ⟨hi, fun k hk hki => ?_⟩
      have hhas : hasLabel R i = true := List.any_eq_true.mpr ⟨k, hk, by simpa using hki⟩
      rw [hhas] at hfree
      cases hfree

theorem Rows.Replaced.mem_links (h : Replaced id labelIds linked R R') :
    ⟨id, i⟩ ∈ R'.links ↔ i ∈ linked := by
  have hmem : ⟨id, i⟩ ∈ R'.links.filter (·.messageId == id) ↔ ⟨id, i⟩ ∈ R'.links := by
    simp [List.mem_filter]
  rw [← hmem, h.links]
  simp

/-- Of the statements of a relinking, that which makes the link at the place `k` is the first to be
refused. -/
def RefusesLink (r : Replica) (id : String) (labelIds : List String) (k : Nat) : Prop :=
  k < labelIds.length ∧
    r.passes (r.rows.preparation id labelIds ++ Rows.linking labelIds) =
      (r.rows.preparation id labelIds).length + k

instance (r : Replica) (id : String) (labelIds : List String) (k : Nat) :
    Decidable (r.RefusesLink id labelIds k) :=
  inferInstanceAs (Decidable (_ ∧ _))

theorem relink_refused (hnodup : labelIds.Nodup) {k : Nat} (hk : r.RefusesLink id labelIds k) :
    ∃ r', relink id owner labelIds r = .error (.interrupted id k labelIds.length) r' ∧
      r'.rows = (r.rows.enterAll owner (r.rows.unknown labelIds)).linkOnly id
        (labelIds.take k) := by
  obtain ⟨hlt, hpasses⟩ := hk
  have hcourse : Course r (relink id owner labelIds) _ _ _ := course_relink hnodup
  cases hrelink : relink id owner labelIds r with
  | ok n r' =>
    have hall := (hcourse.ok n r' hrelink).1
    rw [hpasses, List.length_append, Rows.linking_length] at hall
    omega
  | error e r' =>
    have hbroken := (hcourse.error e r' hrelink).2.1
    rw [hpasses] at hbroken
    obtain ⟨rfl, hrows⟩ := hbroken.of_linking
    exact ⟨r', rfl, hrows⟩

theorem relink_sound (hnodup : labelIds.Nodup) (hs : r.Sound) :
    ∃ r', relink id owner labelIds r = .ok labelIds.length r' := by
  have hcourse : Course r (relink id owner labelIds) _ _ _ := course_relink hnodup
  cases hrelink : relink id owner labelIds r with
  | ok n r' => exact ⟨r', by rw [(hcourse.ok n r' hrelink).2.1.1]⟩
  | error e r' =>
    have hlt := (hcourse.error e r' hrelink).1
    rw [passes, Database.Sound.passed hs] at hlt
    exact absurd hlt (Nat.lt_irrefl _)

end Replica

namespace Backlog

theorem find?_put (a : Arrear) (l : List Arrear) :
    (put a l).find? (·.messageId == a.messageId) = some a := by
  induction l with
  | nil => simp [put]
  | cons x l ih =>
    rw [put]
    split
    · simp
    · split
      · simp
      · next hne =>
        rw [List.find?_cons_of_neg, ih]
        simpa using fun heq : x.messageId = a.messageId => hne heq.symm

/-- The entry of a failure has the labels that are to be linked. -/
theorem find?_record (b : Backlog) (now : Calendar.Instant) (id owner : String)
    (labelIds : List String) (e : Failure) :
    ∃ a, (b.record now id owner labelIds e).find? id = some a ∧ a.labelIds = labelIds ∧
      a.ownerId = owner := by
  let a : Arrear :=
    { messageId := id, ownerId := owner, labelIds
      attempts := ((b.find? id).map Arrear.attempts).getD 0 + 1
      lastError := e.message
      firstFailed := ((b.find? id).map Arrear.firstFailed).getD now }
  exact ⟨a, find?_put a b.arrears, rfl, rfl⟩

end Backlog

namespace Mailroom

open Relation (ReflTransGen)
open Replica (Rows)

variable {σ : Type} {room room' later : Mailroom σ} {id owner : String} {labelIds : List String}
variable {n m : Nat}

/-- The mailrooms are the same up to the version of the replica and the number of statements that
were made of it. -/
def SameUpToVersion (room room' : Mailroom σ) : Prop :=
  ∃ version count, room' = { room with
    replica := { version, database := { room.replica.database with count } } }

/-- The replacement was tried and failed, and the replica has the rows that it left behind. The plan
of failures may be another one by then. -/
def Failed (id owner : String) (labelIds : List String) (room later : Mailroom σ) : Prop :=
  ∃ e room', replaceLinks id owner labelIds room = .error e room' ∧
    later.replica.rows = room'.replica.rows

/-- A replacement is a relinking that is kept account of. -/
theorem replaceLinks_eq (id owner : String) (labelIds : List String) (room : Mailroom σ) :
    replaceLinks id owner labelIds room =
      match Replica.relink id owner (distinct labelIds) room.replica with
      | .ok n r => .ok n { room with replica := r, backlog := (room.backlog.resolve id).1 }
      | .error e r => .error e { room with
          replica := r
          backlog := room.backlog.record (.ofMillis room.now) id owner (distinct labelIds) e } := by
  have hattempt : attempt (onReplica (Replica.relink id owner (distinct labelIds))) room =
      match Replica.relink id owner (distinct labelIds) room.replica with
      | .ok n r => .ok (.ok n) { room with replica := r }
      | .error e r => .ok (.error e) { room with replica := r } := by
    unfold attempt onReplica
    cases Replica.relink id owner (distinct labelIds) room.replica <;> rfl
  unfold replaceLinks
  dsimp only [bind, EStateM.bind]
  rw [hattempt]
  cases Replica.relink id owner (distinct labelIds) room.replica <;> rfl

theorem replaceLinks_ok (h : replaceLinks id owner labelIds room = .ok n room') :
    n = (distinct labelIds).length ∧
      room'.replica.rows = room.replica.rows.relinked id owner (distinct labelIds) ∧
      room'.replica.database.plan = room.replica.database.plan ∧
      room' = { room with replica := room'.replica, backlog := (room.backlog.resolve id).1 } := by
  rw [replaceLinks_eq] at h
  split at h
  · next n' r hrelink =>
    obtain ⟨rfl, rfl⟩ := EStateM.Result.ok.inj h
    obtain ⟨-, ⟨hn, hrows⟩, hplan, -⟩ :=
      (Replica.course_relink (nodup_distinct labelIds)).ok n' r hrelink
    exact ⟨hn, hrows, hplan, rfl⟩
  · cases h

theorem Failed.relinked (h : Failed id owner labelIds room later) :
    later.replica.rows.relinked id owner (distinct labelIds) =
      room.replica.rows.relinked id owner (distinct labelIds) := by
  obtain ⟨e, room', hfails, hrows⟩ := h
  rw [replaceLinks_eq] at hfails
  split at hfails
  · cases hfails
  · next e' r hrelink =>
    obtain ⟨-, rfl⟩ := EStateM.Result.error.inj hfails
    rw [hrows]
    exact ((Replica.course_relink (nodup_distinct labelIds)).error e' r hrelink).2.1.relinked
      (nodup_distinct labelIds)

theorem relinked_of_failures (h : ReflTransGen (Failed id owner labelIds) room later) :
    later.replica.rows.relinked id owner (distinct labelIds) =
      room.replica.rows.relinked id owner (distinct labelIds) := by
  induction h with
  | refl => rfl
  | tail _ hfailed ih => exact hfailed.relinked.trans ih

/-- What is replaced again is as it was. -/
theorem sameUpToVersion_of_twice {room'' : Mailroom σ}
    (h : replaceLinks id owner labelIds room = .ok n room')
    (h' : replaceLinks id owner labelIds room' = .ok m room'') :
    m = n ∧ SameUpToVersion room' room'' := by
  obtain ⟨hn, hrows, -, hroom⟩ := replaceLinks_ok h
  obtain ⟨hm, hrows', hplan', hroom'⟩ := replaceLinks_ok h'
  refine ⟨hm.trans hn.symm, room''.replica.version, room''.replica.database.count, ?_⟩
  have hsame : room''.replica.rows = room'.replica.rows := by
    rw [hrows', hrows, Rows.relinked_relinked (nodup_distinct labelIds)]
  have hbacklog : (room'.backlog.resolve id).1 = room'.backlog := by
    rw [hroom]
    simp [Backlog.resolve, List.filter_filter]
  have hreplica : room''.replica = ⟨{ room'.replica.database with
      count := room''.replica.database.count }, room''.replica.version⟩ :=
    calc room''.replica
        = ⟨⟨room''.replica.rows, room''.replica.database.plan, room''.replica.database.count⟩,
            room''.replica.version⟩ := rfl
      _ = _ := by rw [hsame, hplan']; rfl
  calc room''
      = { room' with replica := room''.replica, backlog := (room'.backlog.resolve id).1 } := hroom'
    _ = { room' with replica := room''.replica } := by rw [hbacklog]
    _ = _ := congrArg (fun r => { room' with replica := r }) hreplica

/-- A replacement that goes through makes just the links asked for and leaves no entry in the
backlog, and to make it again changes nothing. If the replica refuses one of the links, those before
it are there and the backlog has the labels. However often it failed, in the end the rows are those
of a replacement that did not fail. -/
theorem replaceLinks_resumable (room : Mailroom σ) (id owner : String) (labelIds : List String) :
    let ids := distinct labelIds
    (room.replica.Sound →
      ∃ room', replaceLinks id owner labelIds room = .ok ids.length room') ∧
    (∀ n room', replaceLinks id owner labelIds room = .ok n room' →
      n = ids.length ∧ (∀ i, ⟨id, i⟩ ∈ room'.replica.rows.links ↔ i ∈ labelIds) ∧
      room.replica.rows.Replaced id ids ids room'.replica.rows ∧
      room'.backlog.holds id = false ∧
      ∀ m room'', replaceLinks id owner labelIds room' = .ok m room'' →
        m = n ∧ SameUpToVersion room' room'') ∧
    (∀ k, room.replica.RefusesLink id ids k →
      ∃ room', replaceLinks id owner labelIds room = .error (.interrupted id k ids.length) room' ∧
        room.replica.rows.Replaced id ids (ids.take k) room'.replica.rows ∧
        ∃ a, room'.backlog.find? id = some a ∧ a.labelIds = ids ∧ a.ownerId = owner) ∧
    ∀ later, ReflTransGen (Failed id owner labelIds) room later →
      ∀ n room', replaceLinks id owner labelIds later = .ok n room' →
        ∀ (fresh : Mailroom σ) m fresh', fresh.replica.rows = room.replica.rows →
          replaceLinks id owner labelIds fresh = .ok m fresh' →
            room'.replica.rows = fresh'.replica.rows := by
  intro ids
  have hnodup : ids.Nodup := nodup_distinct labelIds
  refine ⟨fun hs => ?_, fun n room' h => ?_, fun k hk => ?_, ?_⟩
  · obtain ⟨r, hrelink⟩ : ∃ r, Replica.relink id owner ids room.replica = .ok ids.length r :=
      Replica.relink_sound hnodup hs
    rw [replaceLinks_eq, hrelink]
    exact ⟨_, rfl⟩
  · obtain ⟨hn, hrows, -, hroom⟩ := replaceLinks_ok h
    have hreplaced : room.replica.rows.Replaced id ids ids room'.replica.rows := by
      rw [hrows]
      exact Rows.replaced_linkOnly ids
    refine ⟨hn, fun i => ?_, hreplaced, ?_, fun m room'' => sameUpToVersion_of_twice h⟩
    · rw [hreplaced.mem_links, mem_distinct]
    · rw [hroom]
      simp
  · obtain ⟨r, hrelink, hrows⟩ : ∃ r, Replica.relink id owner ids room.replica =
        .error (.interrupted id k ids.length) r ∧ r.rows = _ := Replica.relink_refused hnodup hk
    rw [replaceLinks_eq, hrelink]
    refine ⟨_, rfl, ?_, Backlog.find?_record _ _ _ _ _ _⟩
    dsimp only
    rw [hrows]
    exact Rows.replaced_linkOnly (ids.take k)
  · intro later hfailed n room' h fresh m fresh' hfresh h'
    obtain ⟨-, hrows, -⟩ := replaceLinks_ok h
    obtain ⟨-, hrows', -⟩ := replaceLinks_ok h'
    rw [hrows, hrows', relinked_of_failures hfailed, hfresh]

/-- The replica with its rows as they are, and with nothing that fails from now on. -/
def mended (room : Mailroom σ) : Mailroom σ :=
  { room with replica.database.plan := Database.sound }

/-- The second of three links is refused, and the replacement is made again when it no longer is. -/
theorem replaceLinks_resumable_refused :
    let room := (refusing (.insertLink "loose")).afterAll
      [.errand 0 (.replaceLinks "none" "bob" ["starred"])]
    let labelIds := ["INBOX", "loose", "INBOX", "archive"]
    room.replica.RefusesLink "none" (distinct labelIds) 1 ∧
      ∃ cut, replaceLinks "none" "bob" labelIds room = .error (.interrupted "none" 1 3) cut ∧
        (∀ i, ⟨"none", i⟩ ∈ cut.replica.rows.links ↔ i = "INBOX") ∧ cut.mended.replica.Sound ∧
        ∃ later fresh, replaceLinks "none" "bob" labelIds cut.mended = .ok 3 later ∧
          replaceLinks "none" "bob" labelIds room.mended = .ok 3 fresh ∧
          later.replica.rows = fresh.replica.rows := by
  intro room labelIds
  have hrefused : room.replica.RefusesLink "none" (distinct labelIds) 1 := by decide +kernel
  have hsound (room : Mailroom Unit) : room.mended.replica.Sound := fun _ _ _ => rfl
  obtain ⟨-, -, hlink, hresume⟩ := replaceLinks_resumable room "none" "bob" labelIds
  obtain ⟨cut, hcut, hreplaced, -⟩ := hlink 1 hrefused
  obtain ⟨later, hlater⟩ := (replaceLinks_resumable cut.mended "none" "bob" labelIds).1 (hsound cut)
  obtain ⟨fresh, hfresh⟩ :=
    (replaceLinks_resumable room.mended "none" "bob" labelIds).1 (hsound room)
  have hfailed : Failed "none" "bob" labelIds room cut.mended := ⟨_, cut, hcut, rfl⟩
  refine ⟨hrefused, cut, hcut, fun i => ?_, hsound cut, later, fresh, hlater, hfresh,
    hresume cut.mended (.single hfailed) _ later hlater room.mended _ fresh rfl hfresh⟩
  rw [hreplaced.mem_links]
  exact List.mem_singleton

end Mailroom

end LabelMail
