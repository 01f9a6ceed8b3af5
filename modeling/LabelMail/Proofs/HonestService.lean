import LabelMail.Blacklist.Remote
import LabelMail.Proofs.EncodedText
import LabelMail.Proofs.Primary.Listings

/-!
An honest service in place of the table. A service that keeps a set of addresses and answers every
command from it gives the client the same answers as the store gives from its table, call by call,
and has the same addresses. An address that is accepted has no blank, so that it stands whole in the
line of the command, and the command ends where its line does.
-/
namespace LabelMail

namespace Text

variable {α : Type} {p : α → Bool} {before after : List α} {a : α}

theorem cutFirst_of_first (hbefore : ∀ c ∈ before, p c = false) (ha : p a) :
    cutFirst p (before ++ a :: after) = (before, some after) := by
  have hdrop : (before ++ a :: after).dropWhile (fun c => !p c) = a :: after := by
    rw [List.dropWhile_append_of_pos fun c hc => by simp [hbefore c hc]]
    simp [ha]
  have htake : (before ++ a :: after).takeWhile (fun c => !p c) = before := by
    rw [List.takeWhile_append_of_pos fun c hc => by simp [hbefore c hc]]
    simp [ha]
  rw [cutFirst, hdrop, htake]

theorem dropEndWhile_concat (ha : p a) :
    dropEndWhile p (before ++ [a]) = dropEndWhile p before := by
  simp [dropEndWhile, ha]

end Text

namespace Blacklist

open Text

variable {τ : Type} {url : String} {urls : List String}

/-- What a call answers about a list of addresses, and the list afterwards. -/
def answered (c : Call) (urls : List String) : Bool × List String :=
  let listed := urls.contains c.url
  match c.verb with
  | .lookup => (listed, urls)
  | .add => (!listed, if listed then urls else urls ++ [c.url])
  | .remove => (listed, urls.filter (· != c.url))

/-- The replies to calls that are made one after the other, each at its time, and the state after
all of them. -/
def series (ask : Int → Oracle τ) : List (Int × Call) → τ → List Reply × τ
  | [], s => ([], s)
  | (now, c) :: rest, s =>
    let (reply, s) := ask now c s
    let (replies, s) := series ask rest s
    (reply :: replies, s)

theorem series_cons (ask : Int → Oracle τ) (now : Int) (c : Call) (rest : List (Int × Call))
    (s : τ) :
    series ask ((now, c) :: rest) s =
      ((ask now c s).1 :: (series ask rest (ask now c s).2).1,
        (series ask rest (ask now c s).2).2) := rfl

namespace Wire

/-- A line ends with its first line feed. -/
theorem lines_of_line {line rest : List UInt8} (h : 10 ∉ line) :
    lines (line ++ 10 :: rest) = (line ++ [10]) :: lines rest := by
  induction line with
  | nil => simp [lines]
  | cons b line ih =>
    have hb : b ≠ 10 := fun hb => h (by simp [hb])
    have hline : 10 ∉ line := fun hmem => h (List.mem_cons_of_mem b hmem)
    simp [lines, hb, ih hline]

theorem isBlank_of_isLineEnd {c : Char} (h : isLineEnd c) : isBlank c := by
  simp only [isLineEnd, Bool.or_eq_true, beq_iff_eq] at h
  rcases h with rfl | rfl <;> decide

/-- A command without its line feed. -/
theorem command_line (v : Verb) (hurl : hasBlank url = false) :
    ∀ c ∈ (v.word ++ " " ++ url).toList, isLineEnd c = false := by
  intro c hc
  rw [String.toList_append, String.toList_append, List.mem_append, List.mem_append] at hc
  rcases hc with (hword | hspace) | hc
  · have hwords : ∀ c ∈ v.word.toList, isLineEnd c = false := by
      cases v <;> simp [Verb.word, isLineEnd]
    exact hwords c hword
  · obtain rfl : c = ' ' := by simpa using hspace
    decide
  · by_contra hend
    have hblank : isBlank c := isBlank_of_isLineEnd (by simpa using hend)
    have hany : url.toList.any isBlank = false := hurl
    simp [List.any_eq_false.mp hany c hc] at hblank

/-- The server reads the line that the client has sent. -/
theorem commandLine_command (v : Verb) (hurl : hasBlank url = false) :
    Server.commandLine (Utf8.encode (command v url)) = some (v.word ++ " " ++ url) := by
  have hends := command_line v hurl
  generalize hline : v.word ++ " " ++ url = line at hends
  have hnofeed : 10 ∉ Utf8.encode line := by
    intro hmem
    have hfeed := hends '\n' (Utf8.lineFeed_mem_encode hmem)
    cases hfeed
  have hfeed : Utf8.encode "\n" = [10] := by decide +kernel
  have hcommand : Utf8.encode (line ++ "\n") = Utf8.encode line ++ [10] := by
    rw [Utf8.encode_append, hfeed]
  have hfirst : (lines (Utf8.encode (line ++ "\n"))).head? = some (Utf8.encode (line ++ "\n")) := by
    rw [hcommand, lines_of_line hnofeed]
    rfl
  have htext : dropEndWhile isLineEnd (line ++ "\n").toList = line.toList := by
    have hlast : ∀ c, line.toList.getLast? = some c → isLineEnd c = false :=
      fun c hc => hends c (List.mem_of_getLast? hc)
    rw [String.toList_append, show "\n".toList = ['\n'] from rfl, dropEndWhile_concat (by decide)]
    exact dropEndWhile_eq_self hlast
  rw [Server.commandLine, command, hline, hfirst, Option.bind_some, lineText, Utf8.decode_encode]
  dsimp only
  rw [htext, String.ofList_toList]
  rfl

theorem splitCommand_line (v : Verb) (url : String) :
    Server.splitCommand (v.word ++ " " ++ url) = (v.word, url) := by
  have hword : ∀ c ∈ v.word.toList, (c == ' ') = false := by cases v <;> simp [Verb.word]
  have hline : (v.word ++ " " ++ url).toList = v.word.toList ++ ' ' :: url.toList := by simp
  rw [Server.splitCommand, hline, cutFirst_of_first hword rfl]
  simp

/-- How the client reads the replies of an honest server. -/
theorem readAnswer_found :
    readAnswer .lookup (lines (Utf8.encode "200 Ok\n\ntrue true\n")) = .ok ⟨.ok, some true⟩ := by
  decide +kernel

theorem readAnswer_notFound (v : Verb) :
    readAnswer v (lines (Utf8.encode "404 Not Found\n")) = .ok ⟨.notFound, none⟩ := by
  cases v <;> decide +kernel

theorem readAnswer_created :
    readAnswer .add (lines (Utf8.encode "201 Created\n")) = .ok ⟨.created, none⟩ := by
  decide +kernel

theorem readAnswer_conflict :
    readAnswer .add (lines (Utf8.encode "409 Conflict\n")) = .ok ⟨.conflict, none⟩ := by
  decide +kernel

theorem readAnswer_removed :
    readAnswer .remove (lines (Utf8.encode "204 No Content\n")) = .ok ⟨.noContent, none⟩ := by
  decide +kernel

/-- The reply of an honest server says what the call answers about its addresses. -/
theorem outcome_honest (address : String) (c : Call) (urls : List String) :
    Remote.outcome address c (Utf8.encode (Server.honest urls c.verb.word c.url).1) =
        .ok (answered c urls).1 ∧
      (Server.honest urls c.verb.word c.url).2 = (answered c urls).2 := by
  obtain ⟨verb, url⟩ := c
  have hfilter : url ∉ urls → urls.filter (· != url) = urls := by
    intro h
    apply List.filter_eq_self.mpr
    intro u hu
    have hne : u ≠ url := fun heq => h (heq ▸ hu)
    simpa using hne
  by_cases hlisted : url ∈ urls
  · cases verb <;> simp [Server.honest, Verb.word, answered, hlisted, Remote.outcome,
      readAnswer_found, readAnswer_conflict, readAnswer_removed, Remote.verdict]
  · cases verb <;> simp [Server.honest, Verb.word, answered, hlisted, hfilter, Remote.outcome,
      readAnswer_notFound, readAnswer_created, Remote.verdict]

end Wire

/-- The service is reached and answers every command from its addresses. -/
structure Remote.Honest (r : Remote) : Prop where
  reachable : r.route = .reachable
  unscripted : r.server.script = []

theorem Remote.Honest.exchange {r : Remote} (hr : r.Honest) {c : Call}
    (hurl : hasBlank c.url = false) :
    (r.exchange c).1 = .atOnce (.ok (answered c r.server.urls).1) ∧
      (r.exchange c).2.Honest ∧
      (r.exchange c).2.server.urls = (answered c r.server.urls).2 := by
  obtain ⟨houtcome, hurls⟩ := Wire.outcome_honest r.address c r.server.urls
  unfold Remote.exchange Server.serve
  simp only [hr.reachable, hr.unscripted, Wire.commandLine_command c.verb hurl,
    Wire.splitCommand_line]
  exact ⟨congrArg Reply.atOnce houtcome, ⟨rfl, rfl⟩, hurls⟩

end Blacklist

namespace Primary

open Blacklist

/-- The store as a blacklist that is asked at a certain time. -/
def asOracle (now : Int) : Oracle Store := fun c db =>
  match ask now c db with
  | .ok b db => (.atOnce (.ok b), db)
  | .error e db => (.atOnce (.error e), db)

theorem contains_urls (url : String) (table : List ListingRow) :
    (table.map ListingRow.url).contains url = isListed url table := by
  rw [Bool.eq_iff_iff, List.contains_iff_mem, isListed]
  simp

/-- The table answers as the list of its addresses does. -/
theorem tableAnswer_answered (now : Int) (c : Call) (table : List ListingRow) :
    (tableAnswer now c table).1 = (answered c (table.map ListingRow.url)).1 ∧
      (tableAnswer now c table).2.map ListingRow.url =
        (answered c (table.map ListingRow.url)).2 := by
  obtain ⟨verb, url⟩ := c
  unfold tableAnswer answered
  dsimp only
  rw [contains_urls]
  cases verb with
  | lookup => exact ⟨rfl, rfl⟩
  | add => by_cases hlisted : isListed url table <;> simp [hlisted]
  | remove =>
    refine ⟨rfl, ?_⟩
    rw [List.filter_map]
    rfl

/-- From a sound table every call is answered as from the list of its addresses. -/
theorem ask_sound {db : Store} (hs : db.Sound) {table : List ListingRow}
    (htable : db.rows.blacklist = some table) (now : Int) {c : Call} {u : String}
    (hu : Url.accepted c.url = .ok u) :
    ∃ db' table', asOracle now c db =
        (.atOnce (.ok (answered ⟨c.verb, u⟩ (table.map ListingRow.url)).1), db') ∧ db'.Sound ∧
      db'.rows.blacklist = some table' ∧
      table'.map ListingRow.url = (answered ⟨c.verb, u⟩ (table.map ListingRow.url)).2 := by
  have hends : Ends (ask now c db) _ _ := ask_answered c
  obtain ⟨hanswer, hafter⟩ := tableAnswer_answered now ⟨c.verb, u⟩ table
  unfold asOracle
  cases hask : ask now c db with
  | ok b db' =>
    obtain ⟨u', table', hu', htable', rfl, hrows, hlater⟩ := hends.ok b db' hask
    obtain rfl := Except.ok.inj (hu.symm.trans hu')
    obtain rfl := Option.some.inj (htable.symm.trans htable')
    rw [hanswer]
    exact ⟨db', _, rfl, hs.later hlater, by rw [hrows], hafter⟩
  | error e db' =>
    rcases (hends.error e db' hask).2 with hrefused | ⟨-, hmissing⟩
    · rw [hu] at hrefused
      cases hrefused
    · rw [hmissing hs] at htable
      cases htable

end Primary

namespace Blacklist

open Text

/-- The store and the service do not fail, and the table of the store has the addresses of the
service. -/
structure SameListed (db : Primary.Store) (r : Remote) : Prop where
  sound : db.Sound
  honest : r.Honest
  listed : ∃ table, db.rows.blacklist = some table ∧
    table.map Primary.ListingRow.url = r.server.urls

/-- The reply to a call for which nothing went wrong: yes or no, or that the address is none. -/
def Reply.Settled (reply : Reply) : Prop :=
  (∃ b, reply = .atOnce (.ok b)) ∨ ∃ why, reply = .atOnce (.error (.invalid why))

theorem hasBlank_of_accepted {text url : String} (h : Url.accepted text = .ok url) :
    hasBlank url = false := by
  unfold Url.accepted at h
  dsimp only at h
  split at h
  · cases h
  · split at h
    · cases h
    · next hblank =>
      obtain rfl := Except.ok.inj h
      simpa using hblank

theorem SameListed.step {db : Primary.Store} {r : Remote} (h : SameListed db r) (now : Int)
    (c : Call) :
    (Remote.ask c r).1 = (Primary.asOracle now c db).1 ∧ (Remote.ask c r).1.Settled ∧
      SameListed (Primary.asOracle now c db).2 (Remote.ask c r).2 := by
  cases hurl : Url.accepted c.url with
  | error e =>
    obtain ⟨why, rfl⟩ := Primary.accepted_error hurl
    have hthere : Remote.ask c r = (.atOnce (.error (.invalid why)), r) := by
      rw [Remote.ask, hurl]
    have hhere : Primary.asOracle now c db = (.atOnce (.error (.invalid why)), db) := by
      rw [Primary.asOracle, Primary.ask, hurl]
      rfl
    rw [hthere, hhere]
    exact ⟨rfl, .inr ⟨why, rfl⟩, h⟩
  | ok u =>
    obtain ⟨table, htable, hurls⟩ := h.listed
    obtain ⟨db', table', hhere, hsound, htable', hurls'⟩ :=
      Primary.ask_sound h.sound htable now hurl
    have hthere : Remote.ask c r = r.exchange ⟨c.verb, u⟩ := by
      rw [Remote.ask, hurl]
    obtain ⟨hreply, hhonest, hserver⟩ :=
      h.honest.exchange (c := ⟨c.verb, u⟩) (hasBlank_of_accepted hurl)
    rw [hhere, hthere, hreply, ← hurls]
    refine ⟨rfl, .inl ⟨_, rfl⟩, hsound, hhonest, table', htable', ?_⟩
    rw [hserver, hurls', hurls]

theorem SameListed.series {db : Primary.Store} {r : Remote} (h : SameListed db r)
    (calls : List (Int × Call)) :
    (series (fun _ => Remote.ask) calls r).1 = (series Primary.asOracle calls db).1 ∧
      (∀ reply ∈ (series (fun _ => Remote.ask) calls r).1, reply.Settled) ∧
      SameListed (series Primary.asOracle calls db).2 (series (fun _ => Remote.ask) calls r).2 := by
  induction calls generalizing db r with
  | nil => exact ⟨rfl, List.forall_mem_nil _, h⟩
  | cons call calls ih =>
    obtain ⟨now, c⟩ := call
    obtain ⟨hreply, hsettled, hnext⟩ := h.step now c
    obtain ⟨hreplies, hall, hlast⟩ := ih hnext
    rw [series_cons, series_cons]
    refine ⟨?_, List.forall_mem_cons.mpr ⟨hsettled, hall⟩, hlast⟩
    dsimp only
    rw [hreply, hreplies]

/-- An honest service that starts without an address is as good as an empty table of the store. The
replies are the same call by call, and the service has the addresses of the table. -/
theorem service_like_table (db : Primary.Store) (hsound : db.Sound)
    (htable : db.rows.blacklist = some []) (r : Remote) (hr : r.Honest)
    (hempty : r.server.urls = []) (calls : List (Int × Call)) :
    let here := series Primary.asOracle calls db
    let there := series (fun _ => Remote.ask) calls r
    there.1 = here.1 ∧ (∀ reply ∈ here.1, reply.Settled) ∧
    ∃ table, here.2.rows.blacklist = some table ∧
      table.map Primary.ListingRow.url = there.2.server.urls := by
  intro here there
  have hstart : SameListed db r := ⟨hsound, hr, [], htable, hempty.symm⟩
  obtain ⟨hreplies, hsettled, hlast⟩ := hstart.series calls
  rw [hreplies] at hsettled
  exact ⟨hreplies, hsettled, hlast.listed⟩

/-- Both say that an address was new once, that it is listed then, and that a text with a blank is
no address. -/
theorem service_like_table_sample :
    let db : Primary.Store := ⟨.empty, Database.sound, 0⟩
    let r : Remote := ⟨"service", 500, .reachable, .empty⟩
    let calls : List (Int × Call) := [(1, ⟨.add, " http://ä.b "⟩), (2, ⟨.add, "http://ä.b"⟩),
      (3, ⟨.lookup, "http://ä.b"⟩), (4, ⟨.remove, "http://ä.b\nPOST c"⟩)]
    db.Sound ∧ db.rows.blacklist = some [] ∧ r.Honest ∧ r.server.urls = [] ∧
    (series (fun _ => Remote.ask) calls r).1.map Reply.answer =
      [.ok true, .ok false, .ok true, .error (.invalid "url must not contain whitespace")] ∧
    (series Primary.asOracle calls db).1 = (series (fun _ => Remote.ask) calls r).1 := by
  intro db r calls
  have hsound : db.Sound := fun _ _ _ => rfl
  have hr : r.Honest := ⟨rfl, rfl⟩
  obtain ⟨hreplies, -⟩ := service_like_table db hsound rfl r hr rfl calls
  refine ⟨hsound, rfl, hr, rfl, ?_, hreplies.symm⟩
  rw [hreplies]
  decide +kernel

end Blacklist

end LabelMail
