import LabelMail.Proofs.ReplyWords

/-!
The replies that say something. A reply says yes or no by the code that its first line starts with
and, for an address that is looked up, by the flags in the first later line that is not blank. The
client answers what the reply says, and a reply that says nothing leaves the call without an answer.
-/
namespace LabelMail.Blacklist

open Text

namespace Wire

variable {line reply : List UInt8} {later : List (List UInt8)} {ws ws' : List String} {b : Bool}

/-- The first of the lines that is not blank has these words. -/
inductive FirstWords : List (List UInt8) → List String → Prop
  | here {line : List UInt8} {later : List (List UInt8)} {ws : List String} :
      Spells line ws → ws ≠ [] → FirstWords (line :: later) ws
  | later {line : List UInt8} {later : List (List UInt8)} {ws : List String} :
      Spells line [] → FirstWords later ws → FirstWords (line :: later) ws

/-- The first line of the reply starts with the code. -/
def Code (code : String) (reply : List UInt8) : Prop :=
  ∃ line later more, linesOf reply = line :: later ∧ Spells line (code :: more)

/-- The first line after the status that is not blank holds these flags. -/
def Flags (flags : List String) (reply : List UInt8) : Prop :=
  ∃ status later, linesOf reply = status :: later ∧ FirstWords later flags

/-- Flags that together say yes or no. -/
def Flagged : List String → Bool → Prop
  | flags, true => ∀ f ∈ flags, f = "true"
  | flags, false => (∀ f ∈ flags, f = "true" ∨ f = "false") ∧ "false" ∈ flags

/-- What a reply says about a call. -/
def Says : Verb → List UInt8 → Bool → Prop
  | .lookup, reply, true => Code "200" reply ∧ ∃ flags, Flags flags reply ∧ Flagged flags true
  | .lookup, reply, false =>
    Code "404" reply ∨ Code "200" reply ∧ ∃ flags, Flags flags reply ∧ Flagged flags false
  | .add, reply, true => Code "201" reply
  | .add, reply, false => Code "409" reply
  | .remove, reply, true => Code "204" reply
  | .remove, reply, false => Code "404" reply

theorem firstWords_blank (hline : Spells line []) :
    FirstWords (line :: later) ws ↔ FirstWords later ws := by
  constructor
  · intro h
    cases h with
    | here hspells hne => exact absurd (hspells.unique hline) hne
    | later _ hlater => exact hlater
  · exact .later hline

theorem firstWords_here (hline : Spells line ws) (hne : ws ≠ []) :
    FirstWords (line :: later) ws' ↔ ws' = ws := by
  constructor
  · intro h
    cases h with
    | here hspells _ => exact hspells.unique hline
    | later hblank _ => exact absurd (hline.unique hblank) hne
  · rintro rfl
    exact .here hline hne

theorem exists_spells_of_firstWords (h : FirstWords (line :: later) ws) :
    ∃ ws', Spells line ws' := by
  cases h with
  | here hspells _ => exact ⟨_, hspells⟩
  | later hblank _ => exact ⟨_, hblank⟩

theorem not_spells_nil (hne : ws ≠ []) : ¬ Spells [] ws := by
  intro h
  have hnil : Spells [] [] := ⟨"", by decide +kernel, rfl⟩
  exact hne (h.unique hnil)

/-- A line is read as its bytes and what is left of its end, unless it is an empty last line. -/
theorem ended_cons (line : List UInt8) (later : List (List UInt8)) :
    (line = [] ∧ later = [] ∧ ended (line :: later) = []) ∨
      ∃ e, (e = [] ∨ e = [10]) ∧ ended (line :: later) = (line ++ e) :: ended later := by
  cases later with
  | nil =>
    by_cases hline : line = []
    · exact .inl ⟨hline, rfl, by simp [ended, hline]⟩
    · exact .inr ⟨[], .inl rfl, by simp [ended, hline]⟩
  | cons next rest => exact .inr ⟨[10], .inr rfl, rfl⟩

theorem trueOrFalse_of_flagged (h : Flagged ws b) : ∀ f ∈ ws, f = "true" ∨ f = "false" := by
  cases b with
  | true => exact fun f hf => .inl (h f hf)
  | false => exact h.1

theorem flagged_iff (h : ∀ f ∈ ws, f = "true" ∨ f = "false") :
    Flagged ws b ↔ ws.all (· == "true") = b := by
  cases b with
  | true => simp [Flagged]
  | false =>
    rw [List.all_eq_false]
    constructor
    · rintro ⟨-, hmem⟩
      exact ⟨"false", hmem, by decide⟩
    · rintro ⟨f, hf, hne⟩
      obtain rfl : f = "false" := (h f hf).resolve_left (by simpa using hne)
      exact ⟨h, hf⟩

theorem flagsOfLine_eq_some {s : String} :
    flagsOfLine s = some b ↔ wordsOf s ≠ [] ∧ Flagged (wordsOf s) b := by
  have hdef : flagsOfLine s =
      if (wordsOf s).isEmpty then none
      else if (wordsOf s).all (fun f => f == "true" || f == "false") then
        some ((wordsOf s).all (· == "true"))
      else none := rfl
  rw [hdef]
  by_cases hnil : wordsOf s = []
  · simp [hnil]
  · rw [if_neg (by simpa using hnil)]
    split
    · next hall =>
      rw [flagged_iff (by simpa using hall), Option.some_inj]
      simp [hnil]
    · next hall =>
      constructor
      · intro h
        cases h
      · rintro ⟨-, hflagged⟩
        exact absurd (by simpa using trueOrFalse_of_flagged hflagged) hall

/-- The flags that are read are those of the first line that is not blank. The blank lines before it
are passed over one by one. -/
theorem readFlags_ended {ls : List (List UInt8)} :
    readFlags (ended ls) = .ok b ↔ ∃ flags, FirstWords ls flags ∧ Flagged flags b := by
  induction ls with
  | nil =>
    constructor
    · intro h
      cases h
    · rintro ⟨flags, hfirst, -⟩
      cases hfirst
  | cons line later ih =>
    rcases ended_cons line later with ⟨rfl, rfl, hended⟩ | ⟨e, he, hended⟩
    · rw [hended]
      constructor
      · intro h
        cases h
      · rintro ⟨flags, hfirst, -⟩
        cases hfirst with
        | here hspells hne => exact absurd hspells (not_spells_nil hne)
        | later _ hlater => cases hlater
    · rw [hended, readFlags]
      cases hs : lineText (line ++ e) with
      | error why =>
        constructor
        · intro h
          cases h
        · rintro ⟨flags, hfirst, -⟩
          obtain ⟨ws, hspells⟩ := exists_spells_of_firstWords hfirst
          obtain ⟨t, ht, -⟩ := (spells_iff he).mp hspells
          rw [hs] at ht
          cases ht
      | ok s =>
        have hline : Spells line (wordsOf s) := (spells_iff he).mpr ⟨s, hs, rfl⟩
        dsimp only [bind, Except.bind]
        by_cases hblank : wordsOf s = []
        · rw [hblank] at hline
          rw [if_pos (wordsOf_eq_nil.mp hblank), ih]
          simp only [firstWords_blank hline]
        · rw [if_neg (mt wordsOf_eq_nil.mpr hblank)]
          simp only [firstWords_here hline hblank, exists_eq_left]
          have hflags := flagsOfLine_eq_some (s := s) (b := b)
          rw [and_iff_right hblank] at hflags
          rw [← hflags]
          cases flagsOfLine s <;> simp

/-- What can be read of the first line of a reply. -/
theorem code_iff {e : List UInt8} {s : String} (hlines : linesOf reply = line :: later)
    (he : e = [] ∨ e = [10]) (hs : lineText (line ++ e) = .ok s) (code : String) :
    Code code reply ↔ (wordsOf s).head? = some code := by
  have hline : Spells line (wordsOf s) := (spells_iff he).mpr ⟨s, hs, rfl⟩
  constructor
  · rintro ⟨line', later', more, hlines', hspells⟩
    obtain ⟨rfl, -⟩ := List.cons.inj (hlines.symm.trans hlines')
    rw [hline.unique hspells]
    rfl
  · intro hhead
    obtain ⟨more, hmore⟩ := List.head?_eq_some_iff.mp hhead
    exact ⟨line, later, more, hlines, hmore ▸ hline⟩

theorem flags_iff (hlines : linesOf reply = line :: later) :
    Flags ws reply ↔ FirstWords later ws := by
  constructor
  · rintro ⟨status, later', hlines', hfirst⟩
    obtain ⟨-, rfl⟩ := List.cons.inj (hlines.symm.trans hlines')
    exact hfirst
  · exact fun hfirst => ⟨line, later, hlines, hfirst⟩

/-- A reply that says something starts with a line of words. -/
theorem spells_of_said {v : Verb} (hlines : linesOf reply = line :: later)
    (h : Says v reply b) : ∃ ws, Spells line ws ∧ ws ≠ [] := by
  have hcode : ∃ code, Code code reply := by
    cases v <;> cases b
    case lookup.false => exact h.elim (fun h => ⟨_, h⟩) (fun h => ⟨_, h.1⟩)
    case lookup.true => exact ⟨_, h.1⟩
    all_goals exact ⟨_, h⟩
  obtain ⟨code, line', later', more, hlines', hspells⟩ := hcode
  obtain ⟨rfl, -⟩ := List.cons.inj (hlines.symm.trans hlines')
  exact ⟨code :: more, hspells, List.cons_ne_nil code more⟩

/-- A status with the code it is written with. -/
def coded : List (String × Status) :=
  [("200", .ok), ("201", .created), ("204", .noContent), ("404", .notFound), ("409", .conflict)]

theorem ofLine_cases (s : String) :
    (∃ entry ∈ coded, (wordsOf s).head? = some entry.1 ∧ Status.ofLine s = entry.2) ∨
      (∀ entry ∈ coded, (wordsOf s).head? ≠ some entry.1) ∧
        Status.ofLine s = .other (trim s) := by
  have hhead : (words s.toList).head?.map String.ofList = (wordsOf s).head? :=
    List.head?_map.symm
  unfold Status.ofLine
  rw [hhead]
  dsimp only
  split_ifs with h200 h201 h204 h404 h409
  · exact .inl ⟨("200", .ok), by decide, h200, rfl⟩
  · exact .inl ⟨("201", .created), by decide, h201, rfl⟩
  · exact .inl ⟨("204", .noContent), by decide, h204, rfl⟩
  · exact .inl ⟨("404", .notFound), by decide, h404, rfl⟩
  · exact .inl ⟨("409", .conflict), by decide, h409, rfl⟩
  · exact .inr ⟨by simp [coded, h200, h201, h204, h404, h409], rfl⟩

theorem readAnswer_cons {v : Verb} {bytes : List UInt8} {s : String}
    (hs : lineText bytes = .ok s) (rest : List (List UInt8)) :
    readAnswer v (bytes :: rest) =
      if v = .lookup ∧ Status.ofLine s = .ok then
        (readFlags rest).map fun listed => ⟨.ok, some listed⟩
      else .ok ⟨Status.ofLine s, none⟩ := by
  rw [readAnswer, hs]
  change (if v = .lookup ∧ Status.ofLine s = .ok then
      readFlags rest >>= fun listed => pure (Answer.mk (Status.ofLine s) (some listed))
    else Except.ok (Answer.mk (Status.ofLine s) none)) = _
  split
  · next h =>
    rw [h.2]
    cases readFlags rest <;> rfl
  · rfl

/-- The client answers yes or no exactly when that is what the reply says. -/
theorem outcome_eq_ok {address : String} {c : Call} :
    Remote.outcome address c reply = .ok b ↔ Says c.verb reply b := by
  obtain ⟨line, later, hlines⟩ := List.exists_cons_of_ne_nil (pieces_ne_nil (· == 10) reply)
  have hlines : linesOf reply = line :: later := hlines
  rw [Remote.outcome, lines_eq, hlines]
  rcases ended_cons line later with ⟨rfl, rfl, hended⟩ | ⟨e, he, hended⟩
  · rw [hended]
    constructor
    · intro h
      cases h
    · intro hsaid
      obtain ⟨ws, hspells, hne⟩ := spells_of_said hlines hsaid
      exact absurd hspells (not_spells_nil hne)
  · rw [hended]
    cases hs : lineText (line ++ e) with
    | error why =>
      rw [readAnswer, hs]
      constructor
      · intro h
        cases h
      · intro hsaid
        obtain ⟨ws, hspells, -⟩ := spells_of_said hlines hsaid
        obtain ⟨t, ht, -⟩ := (spells_iff he).mp hspells
        rw [hs] at ht
        cases ht
    | ok s =>
      have hcode := code_iff hlines he hs
      have hflags (b : Bool) : (∃ flags, Flags flags reply ∧ Flagged flags b) ↔
          readFlags (ended later) = .ok b := by
        simp only [flags_iff hlines, readFlags_ended]
      obtain ⟨verb, url⟩ := c
      rw [readAnswer_cons hs]
      rcases ofLine_cases s with ⟨entry, hentry, hhead, hstatus⟩ | ⟨hhead, hstatus⟩
      · rw [hhead] at hcode
        rw [hstatus]
        simp only [coded, List.mem_cons, List.not_mem_nil, or_false] at hentry
        rcases hentry with rfl | rfl | rfl | rfl | rfl
        · cases hread : readFlags (ended later) <;> cases verb <;> cases b <;>
            simp [Says, hcode, hflags, hread, Remote.verdict, Except.map]
        all_goals cases verb <;> cases b <;> simp [Says, hcode, Remote.verdict]
      · simp only [coded, List.forall_mem_cons] at hhead
        rw [hstatus]
        cases verb <;> cases b <;> simp [Says, hcode, hhead, Remote.verdict]

theorem outcome_unavailable {address : String} {c : Call} {e : Failure}
    (h : Remote.outcome address c reply = .error e) : ∃ why, e = .oracleUnavailable why := by
  unfold Remote.outcome at h
  split at h
  · unfold Remote.verdict at h
    split at h <;> cases h
    exact ⟨_, rfl⟩
  · cases h
    exact ⟨_, rfl⟩

end Wire

open Wire

variable {r : Remote} {c : Call} {reply : List UInt8}

/-- The service is reached with a call for an address in order, and on that connection it sends the
reply and closes. -/
structure Remote.Sends (r : Remote) (c : Call) (reply : List UInt8) : Prop where
  reachable : r.route = .reachable
  served : ∃ url, Url.accepted c.url = .ok url ∧
    (r.server.serve (Utf8.encode (command c.verb url))).1 = .bytes reply

/-- A service that sends the bytes on its next connection. -/
def Remote.sending (reply : List UInt8) : Remote :=
  ⟨"service", 500, .reachable, ⟨[], [some (.bytes reply)], []⟩⟩

theorem Remote.sends_sending {url : String} (hurl : Url.accepted c.url = .ok url)
    (reply : List UInt8) : (Remote.sending reply).Sends c reply := by
  refine ⟨rfl, url, hurl, ?_⟩
  rw [Remote.sending, Server.serve, commandLine_command c.verb (hasBlank_of_accepted hurl)]

theorem Remote.Sends.ask (h : r.Sends c reply) : ∃ url,
    (Remote.ask c r).1 = .atOnce (Remote.outcome r.address { c with url := url } reply) := by
  obtain ⟨url, hurl, hserved⟩ := h.served
  refine ⟨url, ?_⟩
  rw [Remote.ask, hurl]
  dsimp only [Remote.exchange]
  rw [h.reachable]
  dsimp only
  generalize hserve : r.server.serve (Utf8.encode (command c.verb url)) = served at hserved ⊢
  obtain ⟨bytes, server⟩ := served
  obtain rfl : bytes = .bytes reply := hserved
  rfl

theorem Remote.Sends.answer_iff (h : r.Sends c reply) (b : Bool) :
    (Remote.ask c r).1.answer = .ok b ↔ Says c.verb reply b := by
  obtain ⟨url, hask⟩ := h.ask
  rw [hask]
  exact outcome_eq_ok

theorem Remote.Sends.unavailable (h : r.Sends c reply) {e : Failure}
    (he : (Remote.ask c r).1.answer = .error e) : ∃ why, e = .oracleUnavailable why := by
  obtain ⟨url, hask⟩ := h.ask
  rw [hask] at he
  exact outcome_unavailable he

/-- Whatever bytes the service sends before it closes the connection, the call is answered at once.
The answer is yes or no exactly if the reply says so, and any other reply is no answer. -/
theorem Remote.ask_said (h : r.Sends c reply) : ∃ answer, (Remote.ask c r).1 = .atOnce answer ∧
    (∀ b, answer = .ok b ↔ Says c.verb reply b) ∧
    ((∀ b, ¬ Says c.verb reply b) → ∃ why, answer = .error (.oracleUnavailable why)) := by
  obtain ⟨url, hask⟩ := h.ask
  have hsaid := h.answer_iff
  have hunavailable {e : Failure} := h.unavailable (e := e)
  rw [hask] at hsaid hunavailable
  refine ⟨_, hask, hsaid, fun hnone => ?_⟩
  cases houtcome : Remote.outcome r.address { c with url := url } reply with
  | ok b => exact absurd ((hsaid b).mp houtcome) (hnone b)
  | error e =>
    obtain ⟨why, rfl⟩ := hunavailable houtcome
    exact ⟨why, rfl⟩

/-- Blank lines, carriage returns and a missing line feed at the end do not keep a reply from saying
that the address is listed. Without the flags it says nothing. -/
theorem ask_said_ragged :
    let whole := Utf8.encode "200\r\n \r\ntrue true"
    let flagless := Utf8.encode "200\r\n \r\n"
    let c : Call := ⟨.lookup, " http://ä.b "⟩
    (Remote.sending whole).Sends c whole ∧ Says .lookup whole true ∧
      (Remote.sending flagless).Sends c flagless ∧ ∀ b, ¬ Says .lookup flagless b := by
  intro whole flagless c
  have hurl : Url.accepted c.url = .ok "http://ä.b" := by decide +kernel
  have hwhole := Remote.sends_sending hurl whole
  have hflagless := Remote.sends_sending hurl flagless
  obtain ⟨answer, hask, hsaid, -⟩ := Remote.ask_said hwhole
  obtain ⟨answer', hask', hsaid', -⟩ := Remote.ask_said hflagless
  have hyes : (Remote.ask c (Remote.sending whole)).1.answer = .ok true := by decide +kernel
  have hnone : (Remote.ask c (Remote.sending flagless)).1.answer.toOption = none := by
    decide +kernel
  rw [hask] at hyes
  rw [hask'] at hnone
  refine ⟨hwhole, (hsaid true).mp hyes, hflagless, fun b hb => ?_⟩
  obtain rfl := (hsaid' b).mpr hb
  cases hnone

end LabelMail.Blacklist
