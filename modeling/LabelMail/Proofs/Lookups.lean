import LabelMail.Screening

/-!
Which lookups the screening of a message makes, and how they decide about it. Of the replies that
all addresses would get in turn, those before the first that is no timely no are passed over, and
that one decides; no address behind it is looked up.
-/
namespace LabelMail.Screening

open Blacklist

variable {τ : Type}

abbrev Log := List (Call × Reply)

/-- The oracle that also writes down what it is asked and what it replies. -/
def recording (ask : Oracle τ) : Oracle (τ × Log) := fun c s =>
  let (reply, t) := ask c s.1
  (reply, t, s.2 ++ [(c, reply)])

/-- The lookups of all these addresses in turn. -/
def lookups (ask : Oracle τ) : List String → τ → Log
  | [], _ => []
  | url :: rest, s =>
    let (reply, s) := ask ⟨.lookup, url⟩ s
    (⟨.lookup, url⟩, reply) :: lookups ask rest s

/-- The milliseconds until these replies are there; none if one of them never comes. -/
def waited : Log → Option Nat
  | [] => some 0
  | (_, reply) :: rest => do return (← reply.delay) + (← waited rest)

/-- The reply is there before the budget is used up. -/
def InTime (budget : Nat) (before : Log) (reply : Reply) : Prop :=
  ∃ t d, waited before = some t ∧ reply.delay = some d ∧ t + d ≤ budget

/-- The reply is waited for although the request is withdrawn by then. -/
def Stopped (before : Log) (reply : Reply) : Prop :=
  (reply.withdrawn ∨ ∃ entry ∈ before, entry.2.withdrawn) ∧ reply.delay ≠ some 0

/-- The reply is a timely no. -/
structure Clean (budget : Nat) (before : Log) (reply : Reply) : Prop where
  standing : ¬ Stopped before reply
  inTime : InTime budget before reply
  answer : reply.answer = .ok false

def AllClean (budget : Nat) (log : Log) : Prop :=
  ∀ before entry after, log = before ++ entry :: after → Clean budget before entry.2

/-- The reply that decides leaves the message without an answer of the blacklist, for this
reason. -/
inductive Unanswered (budget : Nat) (before : Log) (reply : Reply) : Failure → Prop
  | late : ¬ InTime budget before reply → Unanswered budget before reply (lateScan budget)
  | unavailable {why : String} : InTime budget before reply →
      reply.answer = .error (.oracleUnavailable why) →
      Unanswered budget before reply (.oracleUnavailable why)

/-- What the first reply that is no timely no makes of the message. -/
inductive Decides (rules : Rules) (before : Log) (reply : Reply) : Except Failure TagSet → Prop
  | listed : ¬ Stopped before reply → InTime rules.budget before reply →
      reply.answer = .ok true → Decides rules before reply (.ok (.ofList [.spam]))
  | refused {e : Failure} : ¬ Stopped before reply → rules.policy = .failClosed →
      Unanswered rules.budget before reply e → Decides rules before reply (.error e)
  | letThrough {e : Failure} : ¬ Stopped before reply → rules.policy = .failOpen →
      Unanswered rules.budget before reply e → Decides rules before reply (.ok (.ofList [.inbox]))
  | failed {e : Failure} : ¬ Stopped before reply → InTime rules.budget before reply →
      reply.answer = .error e → (∀ why, e ≠ .oracleUnavailable why) →
      Decides rules before reply (.error e)
  | withdrawn : Stopped before reply → Decides rules before reply (.error .cancelled)

/-- How the lookups of all addresses go: the calls that are made of them, and what they lead to. -/
inductive Course (rules : Rules) : (all made : Log) → Except Failure TagSet → Prop
  | clean {all : Log} : AllClean rules.budget all → Course rules all all (.ok (.ofList [.inbox]))
  | decided {before after : Log} {entry : Call × Reply} {tags : Except Failure TagSet} :
      AllClean rules.budget before → Decides rules before entry.2 tags →
      Course rules (before ++ entry :: after) (before ++ [entry]) tags

variable {ask : Oracle τ} {rules : Rules} {budget elapsed : Nat} {before log : Log} {reply : Reply}
variable {tags : Except Failure TagSet} {urls : List String} {withdrawn : Bool} {s : τ}

/-- A reply that brings no answer decides by the policy. -/
theorem decides_unanswered {e : Failure} (hs : ¬ Stopped before reply)
    (hu : Unanswered rules.budget before reply e) :
    Decides rules before reply (afterFailure rules.policy e) := by
  have hopen : ∃ why, e = .oracleUnavailable why := by
    cases hu with
    | late _ => exact ⟨_, rfl⟩
    | unavailable _ _ => exact ⟨_, rfl⟩
  obtain ⟨why, rfl⟩ := hopen
  cases hp : rules.policy with
  | failClosed => exact .refused hs hp hu
  | failOpen => exact .letThrough hs hp hu

theorem decides_failed {e : Failure} (hs : ¬ Stopped before reply)
    (ht : InTime rules.budget before reply) (ha : reply.answer = .error e) :
    Decides rules before reply (afterFailure rules.policy e) := by
  by_cases hopen : ∃ why, e = .oracleUnavailable why
  · obtain ⟨why, rfl⟩ := hopen
    exact decides_unanswered hs (.unavailable ht ha)
  · have hother : ∀ why, e ≠ .oracleUnavailable why := fun why he => hopen ⟨why, he⟩
    have hsame : afterFailure rules.policy e = .error e := by
      unfold afterFailure
      split
      · exact absurd rfl (hother _)
      · rfl
    rw [hsame]
    exact .failed hs ht ha hother

theorem waited_append_singleton {c : Call} :
    waited (before ++ [(c, reply)]) = do return (← waited before) + (← reply.delay) := by
  induction before with
  | nil => cases hd : reply.delay <;> simp [waited, hd]
  | cons entry before ih =>
    rw [List.cons_append, waited, waited, ih]
    cases entry.2.delay <;> cases waited before <;> cases reply.delay <;> simp [Nat.add_assoc]

theorem allClean_nil : AllClean budget [] := by
  intro before entry after h
  simp at h

theorem allClean_append_singleton {entry : Call × Reply} (h : AllClean budget before)
    (hc : Clean budget before entry.2) : AllClean budget (before ++ [entry]) := by
  intro first e after heq
  rcases List.eq_nil_or_concat after with rfl | ⟨after, last, rfl⟩
  · obtain ⟨rfl, hlast⟩ := List.append_inj' heq rfl
    cases hlast
    exact hc
  · have hfront : before = first ++ e :: after := by
      rw [List.concat_eq_append, ← List.cons_append, ← List.append_assoc] at heq
      exact (List.append_inj' heq rfl).1
    exact h first e after hfront

@[simp] theorem lookups_calls : (lookups ask urls s).map Prod.fst = urls.map (Call.mk .lookup) := by
  induction urls generalizing s with
  | nil => rfl
  | cons url rest ih => simp [lookups, ih]

theorem Course.isPrefix {all made : Log} (h : Course rules all made tags) : made <+: all := by
  cases h with
  | clean _ => exact List.prefix_refl _
  | decided _ _ => exact ⟨_, List.append_cons .. |>.symm⟩

/-- A policy that refuses mail in doubt lets it into the inbox only if the whole blacklist was
asked and said no to everything. -/
theorem Course.inbox_of_failClosed {all made : Log} (h : Course rules all made tags)
    (hpolicy : rules.policy = .failClosed) (htags : tags = .ok (.ofList [.inbox])) :
    made = all ∧ ∀ entry ∈ all, entry.2.answer = .ok false := by
  cases h with
  | clean hclean =>
    refine ⟨rfl, fun entry hentry => ?_⟩
    obtain ⟨before, after, rfl⟩ := List.append_of_mem hentry
    exact (hclean before entry after rfl).answer
  | decided _ hd =>
    cases hd with
    | listed _ _ _ =>
      have htag : Tag.spam ∈ TagSet.ofList [.inbox] := by
        rw [← Except.ok.inj htags]
        decide
      exact absurd htag (by decide)
    | letThrough _ hopen _ => rw [hpolicy] at hopen; cases hopen
    | refused _ _ _ => cases htags
    | failed _ _ _ _ => cases htags
    | withdrawn _ => cases htags

/-- Writing the calls down changes nothing else. -/
theorem scan_recording :
    let r := scan (recording ask) budget elapsed withdrawn urls (s, log)
    scan ask budget elapsed withdrawn urls s = ⟨r.ended, r.withdrawn, r.state.1⟩ := by
  induction urls generalizing elapsed withdrawn s log with
  | nil => rfl
  | cons url rest ih =>
    rcases hreply : ask ⟨.lookup, url⟩ s with ⟨reply, t⟩
    simp only [scan, recording, hreply]
    by_cases hs : (withdrawn || reply.withdrawn) && reply.delay != some 0
    · simp only [hs, if_true]
    · simp only [hs, Bool.false_eq_true, if_false]
      cases reply.delay with
      | none => rfl
      | some d =>
        by_cases hover : budget < elapsed + d
        · simp only [hover, if_true]
        · simp only [hover, if_false]
          cases reply.answer with
          | error e => rfl
          | ok listed =>
            cases listed with
            | true => rfl
            | false => exact ih

/-- How a scan goes on behind replies that were all timely noes. -/
theorem scan_course (hwaited : waited before = some elapsed)
    (hwithdrawn : withdrawn = before.any (·.2.withdrawn)) (hclean : AllClean rules.budget before) :
    let r := scan (recording ask) rules.budget elapsed withdrawn urls (s, before)
    Course rules (before ++ lookups ask urls s) r.state.2 (sentence rules r.ended) := by
  induction urls generalizing before elapsed withdrawn s with
  | nil =>
    simp only [scan, lookups, List.append_nil]
    exact .clean hclean
  | cons url rest ih =>
    rcases hreply : ask ⟨.lookup, url⟩ s with ⟨reply, t⟩
    have hrecord : recording ask ⟨.lookup, url⟩ (s, before) =
        (reply, t, before ++ [(⟨.lookup, url⟩, reply)]) := by
      simp only [recording, hreply]
    simp only [scan, lookups, hrecord, hreply]
    have hstopped : (withdrawn || reply.withdrawn) && reply.delay != some 0 ↔
        Stopped before reply := by
      simp [Stopped, hwithdrawn, or_comm]
    split
    · next hs =>
      exact .decided hclean (.withdrawn (hstopped.mp hs))
    · next hs =>
      replace hs : ¬ Stopped before reply := fun h => hs (hstopped.mpr h)
      split
      · next hd =>
        have hlate : ¬ InTime rules.budget before reply := by
          rintro ⟨_, _, _, hd', _⟩
          simp [hd] at hd'
        exact .decided hclean (decides_unanswered hs (.late hlate))
      · next d hd =>
        split
        · next hover =>
          have hlate : ¬ InTime rules.budget before reply := by
            rintro ⟨_, _, hw', hd', hle⟩
            rw [hwaited, Option.some_inj] at hw'
            rw [hd, Option.some_inj] at hd'
            omega
          exact .decided hclean (decides_unanswered hs (.late hlate))
        · next hin =>
          have ht : InTime rules.budget before reply :=
            ⟨elapsed, d, hwaited, hd, Nat.le_of_not_lt hin⟩
          split
          · next e he => exact .decided hclean (decides_failed hs ht he)
          · next hl => exact .decided hclean (.listed hs ht hl)
          · next hno =>
            let entry : Call × Reply := (⟨.lookup, url⟩, reply)
            have hwaited' : waited (before ++ [entry]) = some (elapsed + d) := by
              simp [entry, waited_append_singleton, hwaited, hd]
            have hwithdrawn' : (withdrawn || reply.withdrawn) =
                (before ++ [entry]).any (·.2.withdrawn) := by
              simp [entry, hwithdrawn]
            have hclean' : AllClean rules.budget (before ++ [entry]) :=
              allClean_append_singleton hclean ⟨hs, ht, hno⟩
            rw [List.append_cons]
            exact ih hwaited' hwithdrawn' hclean'

/-- The first address whose lookup is no timely no decides about a new message, and nothing is
looked up behind it. -/
theorem classify_decided_by_first_unclean (ask : Oracle τ) (rules : Rules)
    (subject content : String) (s : τ) :
    let urls := Url.inText (subject ++ " " ++ content)
    let v := classify (recording ask) rules subject content false (s, [])
    classify ask rules subject content false s = ⟨v.tags, v.withdrawn, v.state.1⟩ ∧
      urls.Nodup ∧ v.state.2.map Prod.fst <+: urls.map (Call.mk .lookup) ∧
      Course rules (lookups ask urls s) v.state.2 v.tags ∧
      (rules.policy = .failClosed → v.tags = .ok (.ofList [.inbox]) →
        v.state.2.map Prod.fst = urls.map (Call.mk .lookup) ∧
          ∀ entry ∈ v.state.2, entry.2.answer = .ok false) ∧
      classify (recording ask) rules subject content true (s, []) =
        ⟨.error .cancelled, true, (s, [])⟩ := by
  intro urls v
  have hcourse : Course rules (lookups ask urls s) v.state.2 v.tags :=
    scan_course rfl rfl allClean_nil
  have hsame : classify ask rules subject content false s = ⟨v.tags, v.withdrawn, v.state.1⟩ := by
    simp only [classify, Bool.false_eq_true, if_false, v]
    rw [scan_recording]
  refine ⟨hsame, nodup_distinct _, ?_, hcourse, ?_, rfl⟩
  · have h := hcourse.isPrefix.map Prod.fst
    rwa [lookups_calls] at h
  · intro hpolicy htags
    obtain ⟨hall, hno⟩ := hcourse.inbox_of_failClosed hpolicy htags
    rw [hall, lookups_calls]
    exact ⟨rfl, hno⟩

/-- Both addresses of this message are looked up before it goes to the inbox. -/
theorem classify_two_unlisted :
    let unlisted : Oracle Unit := fun _ s => (.atOnce (.ok false), s)
    let v := classify (recording unlisted) ⟨.failClosed, 100⟩ "Read http://a.example!"
      "or (www.b.example)" false ((), [])
    v.state.2.map Prod.fst =
        [⟨.lookup, "http://a.example"⟩, ⟨.lookup, "http://www.b.example"⟩] ∧
      ∀ entry ∈ v.state.2, entry.2.answer = .ok false := by
  intro unlisted v
  obtain ⟨_, _, _, _, hinbox, _⟩ := classify_decided_by_first_unclean unlisted ⟨.failClosed, 100⟩
    "Read http://a.example!" "or (www.b.example)" ()
  have hurls : Url.inText ("Read http://a.example!" ++ " " ++ "or (www.b.example)") =
      ["http://a.example", "http://www.b.example"] := by decide +kernel
  have htags : v.tags = .ok (.ofList [.inbox]) := by
    simp only [v, classify, hurls]
    rfl
  obtain ⟨hcalls, hno⟩ := hinbox rfl htags
  rw [hurls] at hcalls
  exact ⟨hcalls, hno⟩

end LabelMail.Screening
