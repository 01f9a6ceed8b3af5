import LabelMail.Proofs.Mailroom.Discipline
import LabelMail.Proofs.Mailroom.Errands
import LabelMail.Proofs.Mailroom.Following
import LabelMail.Proofs.Replica.Charter

/-!
Runs under a charter. If the charter allows the labels of the primary store, what may stand in for
them, and what the replacements of links ask for, then the replica has no other labels after any
dealings, and none of its links dangles, whatever fails on the way.
-/
namespace LabelMail

namespace Replica.Charter

variable {c : Charter} {h : Holdings} {m : Message} {owner id : String} {labelIds : List String}

/-- The owner's label of this id is allowed under every name, and so is what stands in for it. -/
structure Grants (c : Charter) (owner id : String) : Prop where
  named : ∀ name, c.Allows ⟨id, owner, name⟩
  placeholder : c.Allows (placeholder owner id)

/-- What would stand in for the labels on record is allowed. -/
def Records (c : Charter) (a : Arrear) : Prop :=
  ∀ i ∈ a.labelIds, c.Allows (Replica.placeholder a.ownerId i)

def Holds (c : Charter) (h : Holdings) : Prop :=
  ∀ l ∈ h.labels, c.Grants l.ownerId l.id

/-- The labels that a dealing may bring about are allowed. -/
def Admits (c : Charter) (idAt : Nat → String) : Mailroom.Dealing → Prop
  | .call e => ∀ n, c.Grants e.caller (idAt n)
  | .errand _ (.replaceLinks _ owner labelIds) =>
    ∀ i ∈ labelIds, c.Allows (Replica.placeholder owner i)
  | .errand _ e => ∀ owner, e.owner? = some owner → ∀ n, c.Grants owner (idAt n)

/-- The edits under the charter, and the entries of labels for which it allows placeholders. -/
def discipline (c : Charter) : Discipline :=
  ⟨Rows.Edit c, c.Records⟩

theorem Holds.labelsOf (hc : c.Holds h) (ho : h.Orderly) (hm : m ∈ h.messages) {l : Label}
    (hl : l ∈ h.labelsOf m) : c.Allows l ∧ c.Allows (Replica.placeholder m.ownerId l.id) := by
  obtain ⟨t, ht, rfl⟩ := Holdings.mem_labelsOf.mp hl
  rcases Holdings.mem_reserved_or_custom t with hres | ⟨name, rfl⟩
  · rw [Holdings.labelOf_reserved hres]
    refine ⟨c.shared t hres, ?_⟩
    change c.Allows (Replica.placeholder m.ownerId t.name)
    rw [Replica.placeholder_reserved hres]
    exact c.shared t hres
  · obtain ⟨k, hk, howner, rfl⟩ := ho.labelled m hm _ ht name rfl
    rw [← howner, ho.labelOf_custom hk]
    exact ⟨(hc k hk).named k.name, (hc k hk).placeholder⟩

theorem relinks_discipline
    (hlabels : ∀ i ∈ labelIds, c.Allows (Replica.placeholder owner i)) :
    c.discipline.Relinks id owner labelIds where
  enter _ i hi hfree := .enter (hlabels i hi) (by rwa [Replica.placeholder_id])
  clear _ := .clear id
  link _ _ _ hknown := .link hknown
  entry _ _ howner hids i hi := by
    rw [howner]
    exact hlabels i (hids hi)

theorem Holds.refreshes (hc : c.Holds h) (ho : h.Orderly) (id : String) :
    c.discipline.Refreshes h id where
  copies m hm _ :=
    { message := fun _ => .copy _
      names := fun l hl _ => .name (hc.labelsOf ho hm hl).1
      links := relinks_discipline fun i hi => by
        obtain ⟨l, hl, rfl⟩ := List.mem_map.mp hi
        exact (hc.labelsOf ho hm hl).2 }
  removes _ := .drop id

end Replica.Charter

namespace Mailroom

open Replica (Charter Rows)

variable {σ : Type} {c : Charter} {h : Holdings} {room mid room' : Mailroom σ} {t : Task}
variable {tasks : List Task} {arrears : List Arrear} {owner? : Option String} {d : Dealing}

theorem Task.Grounded.heeds (ht : t.Grounded h arrears) (ho : h.Orderly) (hc : c.Holds h)
    (hrecords : ∀ a ∈ arrears, c.Records a) : t.Heeds c.discipline h := by
  cases t with
  | refresh id => exact hc.refreshes ho id
  | retry a => exact ⟨hc.refreshes ho a.messageId, Charter.relinks_discipline (hrecords a ht)⟩
  | putLabel l => exact fun _ => .name ((hc l ht).named l.name)
  | deleteLabel i => exact fun _ => .retire i
  | sweep ids => exact fun id _ _ => .drop id
  | list owner => trivial

/-- The primary store shows the holdings, and replica and backlog are as the charter says. -/
structure Upheld (c : Charter) (h : Holdings) (room : Mailroom σ) : Prop where
  shows : room.primary.rows.Shows h
  orderly : h.Orderly
  holds : c.Holds h
  rows : room.replica.rows.Chartered c
  records : ∀ a ∈ room.backlog.arrears, c.Records a

theorem Upheld.abides (hu : Upheld c h room) (ha : Abides c.discipline room room')
    (hs : room'.primary.rows.Shows h) : Upheld c h room' :=
  ⟨hs, hu.orderly, hu.holds, hu.rows.edited ha.rows,
    fun a hmem => (ha.backlog a hmem).elim (hu.records a) fun ha => ha⟩

theorem Upheld.run (hu : Upheld c h room) (ht : t.Heeds c.discipline h) :
    Upheld c h (room.run t) :=
  hu.abides (run_abides (holdings_eq hu.shows hu.orderly ▸ ht))
    (hu.shows.idle (trails_run room t).primary)

theorem Upheld.done (hu : Upheld c h room) (htasks : ∀ t ∈ tasks, t.Heeds c.discipline h) :
    Upheld c h (room.done tasks) := by
  induction tasks generalizing room with
  | nil => exact hu
  | cons t tasks ih =>
    have hfirst : Upheld c h (room.run t) := hu.run (htasks t List.mem_cons_self)
    exact ih hfirst fun u hu => htasks u (List.mem_cons_of_mem t hu)

/-- The acts of an owner may leave new labels, and they are granted. -/
theorem Upheld.wrote {caller : String} {acts : List Act} (hu : Upheld c h room)
    (hgrants : acts = [] ∨ ∀ n, c.Grants caller (room.idAt n))
    (hw : Wrote caller h acts room mid) : Upheld c (h.after acts) mid := by
  refine ⟨hw.shows, hu.orderly.after hw.legal, fun l hl => ?_, hw.replica ▸ hu.rows,
    hw.backlog ▸ hu.records⟩
  rcases hgrants with rfl | hgrants
  · exact hu.holds l hl
  · rcases hw.legal.stemsLabel hl with ⟨k, hk, hid, howner⟩ | ⟨⟨n, -, -, hid⟩, howner⟩
    · rw [← hid, ← howner]
      exact hu.holds k hk
    · rw [howner, ← hid]
      exact hgrants n

theorem Upheld.works (hu : Upheld c h room)
    (hgrants : ∀ owner, owner? = some owner → ∀ n, c.Grants owner (room.idAt n))
    (hw : Works owner? h room room') :
    Upheld c room'.holdings room' ∧ room'.idAt = room.idAt := by
  obtain ⟨acts, tasks, mid, hnone, hwrote, htasks, rfl⟩ := hw
  have hmid : Upheld c (h.after acts) mid := by
    refine hu.wrote ?_ hwrote
    cases owner? with
    | none => exact .inl (hnone rfl)
    | some owner => exact .inr (hgrants owner rfl)
  have hdone : Upheld c (h.after acts) (mid.done tasks) :=
    hmid.done fun t ht => (htasks t ht).heeds hmid.orderly hmid.holds hu.records
  refine ⟨?_, (trails_done mid tasks).idAt.trans hwrote.idAt⟩
  rwa [holdings_eq hdone.shows hdone.orderly]

theorem Upheld.atTime (hu : Upheld c h room) (now : Int) : Upheld c h (room.atTime now) :=
  ⟨hu.shows, hu.orderly, hu.holds, hu.rows, hu.records⟩

theorem Upheld.replaceLinks {id owner : String} {labelIds : List String} (hu : Upheld c h room)
    (hlabels : ∀ i ∈ labelIds, c.Allows (Replica.placeholder owner i)) :
    Upheld c h (state (replaceLinks id owner labelIds room)) :=
  hu.abides (abiding_replaceLinks (Charter.relinks_discipline hlabels)).state
    (hu.shows.idle ((quiet_replaceLinks id owner labelIds).trails room).primary)

theorem Upheld.deal (hu : Upheld c room.holdings room) (hd : c.Admits room.idAt d) :
    Upheld c (room.deal d).holdings (room.deal d) ∧ (room.deal d).idAt = room.idAt := by
  cases d with
  | call e =>
    have hwork : Works (some e.caller) room.holdings (room.atTime e.now) (room.step e) :=
      (perform_does (room.atTime e.now) e.caller hu.shows hu.orderly e.operation).works
    refine (hu.atTime e.now).works (fun owner howner => ?_) hwork
    cases howner
    exact hd
  | errand now e =>
    by_cases hlinks : ∃ id owner labelIds, e = .replaceLinks id owner labelIds
    · obtain ⟨id, owner, labelIds, rfl⟩ := hlinks
      have hreplaced : Upheld c room.holdings
          (state (Mailroom.replaceLinks id owner labelIds (room.atTime now))) :=
        (hu.atTime now).replaceLinks hd
      have htrails := (quiet_replaceLinks id owner labelIds).trails (room.atTime now)
      rw [Mailroom.deal, carry, state_discard]
      refine ⟨?_, htrails.idAt⟩
      rwa [holdings_eq hreplaced.shows hreplaced.orderly]
    · have hwork : Works e.owner? room.holdings (room.atTime now) (room.deal (.errand now e)) :=
        carry_works hu.shows hu.orderly fun id owner labelIds he =>
          hlinks ⟨id, owner, labelIds, he⟩
      refine (hu.atTime now).works (fun owner howner => ?_) hwork
      cases e with
      | replaceLinks id owner labelIds => exact absurd ⟨id, owner, labelIds, rfl⟩ hlinks
      | _ => exact hd owner howner

/-- What the charter says holds after any dealings that it admits. -/
theorem Upheld.afterAll (hu : Upheld c room.holdings room) {dealings : List Dealing}
    (hd : ∀ d ∈ dealings, c.Admits room.idAt d) :
    Upheld c (room.afterAll dealings).holdings (room.afterAll dealings) := by
  induction dealings generalizing room with
  | nil => exact hu
  | cons d dealings ih =>
    obtain ⟨hfirst, hidAt⟩ := hu.deal (hd d List.mem_cons_self)
    refine ih hfirst fun k hk => ?_
    rw [hidAt]
    exact hd k (List.mem_cons_of_mem d hk)

theorem Blank.upheld (hb : room.Blank) (c : Charter) : Upheld c room.holdings room := by
  have ho : room.Orderly := hb.orderly
  refine ⟨ho.shows, ho.holdings, ?_, ?_, ?_⟩
  · rw [hb.holdings]
    exact fun _ hl => (List.not_mem_nil hl).elim
  · rw [hb.rows]
    exact Rows.chartered_empty c
  · rw [hb.backlog]
    exact fun _ ha => (List.not_mem_nil ha).elim

end Mailroom

end LabelMail
