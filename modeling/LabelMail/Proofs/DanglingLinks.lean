import LabelMail.Proofs.Divergence
import LabelMail.Proofs.Mailroom.Charter

/-!
Every link of the replica leads to a label. Labels are entered before they are linked to and deleted
with their links, and neither the one nor the other depends on what fails in between.
-/
namespace LabelMail.Mailroom

open Replica (Charter Rows)

variable {σ : Type}

theorem admits_free (idAt : Nat → String) (d : Dealing) : Charter.free.Admits idAt d := by
  have hgrants (owner id : String) : Charter.free.Grants owner id :=
    ⟨fun _ => trivial, trivial⟩
  cases d with
  | call e => exact fun n => hgrants e.caller (idAt n)
  | errand now e =>
    cases e with
    | replaceLinks id owner labelIds => exact fun _ _ => trivial
    | _ => exact fun owner _ n => hgrants owner (idAt n)

/-- Right after a label was deleted no link leads to it. -/
theorem unlinked_of_deleteLabel {room room' : Mailroom σ} {i : String} {n : Nat}
    (hdone : onReplica (Replica.deleteLabel i) room = .ok n room') :
    ∀ l ∈ room'.replica.rows.links, l.labelId ≠ i := by
  obtain ⟨r, rfl, hrows, -⟩ :=
    (onReplica_ends room (Replica.leaves_deleteLabel i)).ok n room' hdone
  rw [hrows]
  exact fun l hl => Rows.ne_of_mem_withoutLabel hl

/-- No link dangles after any dealings, whatever they are about and whatever fails. Since the
replica may fail for good at any statement, this is so in the middle of a dealing as well. -/
theorem no_link_dangles (room : Mailroom σ) (hb : room.Blank) (dealings : List Dealing) :
    (∀ l ∈ (room.afterAll dealings).replica.rows.links,
      ∃ k ∈ (room.afterAll dealings).replica.rows.labels, k.id = l.labelId) ∧
    ∀ (i : String) (n : Nat) (before after : Mailroom σ),
      onReplica (Replica.deleteLabel i) before = .ok n after →
      ∀ l ∈ after.replica.rows.links, l.labelId ≠ i := by
  have hupheld : Upheld Charter.free (room.afterAll dealings).holdings (room.afterAll dealings) :=
    (hb.upheld Charter.free).afterAll fun d _ => admits_free room.idAt d
  exact ⟨hupheld.rows.known, fun _ _ _ _ => unlinked_of_deleteLabel⟩

/-- Links of no message to labels of no one, the second of which the replica refuses. -/
def looseLinks : List Dealing :=
  [.errand 0 (.replaceLinks "none" "bob" ["INBOX", "loose", "starred"])]

theorem no_link_dangles_refused :
    let room := refusing (.insertLink "loose")
    let after := room.afterAll looseLinks
    room.Blank ∧ after.replica.rows.links = [⟨"none", "INBOX"⟩] ∧
      (∀ l ∈ after.replica.rows.links, ∃ k ∈ after.replica.rows.labels, k.id = l.labelId) ∧
      ∃ n deleted, onReplica (Replica.deleteLabel "INBOX") after = .ok n deleted ∧
        ∀ l ∈ deleted.replica.rows.links, l.labelId ≠ "INBOX" := by
  intro room after
  obtain ⟨hknown, hdeleted⟩ := no_link_dangles room (blank_refusing _) looseLinks
  refine ⟨blank_refusing _, by decide +kernel, hknown, ?_⟩
  cases hdone : onReplica (Replica.deleteLabel "INBOX") after with
  | ok n deleted => exact ⟨n, deleted, rfl, hdeleted "INBOX" n after deleted hdone⟩
  | error e failed =>
    have hok : (match onReplica (Replica.deleteLabel "INBOX") after with
      | .ok _ _ => true
      | .error _ _ => false) = true := by decide +kernel
    rw [hdone] at hok
    cases hok

end LabelMail.Mailroom
