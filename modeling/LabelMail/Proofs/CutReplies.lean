import LabelMail.Proofs.ReplyGrammar

/-!
Replies that are cut off. What is left of a reply ends somewhere in one of its lines, and its words
are the same up to the word that was cut. A cut keeps a code or leaves none, since all codes are of
one length, and neither flag begins the other. But the flags that are left may all be true when one
of the flags that are gone was false, and the client does not ask whether a line was ended.
-/
namespace LabelMail

namespace Text

variable {α : Type} {p : α → Bool} {s t w full : List α} {ws rest : List (List α)}

/-- What a list begins with ends in one of its pieces. -/
theorem pieces_prefix (h : t <+: s) : ∃ ws w full rest,
    pieces p s = ws ++ full :: rest ∧ pieces p t = ws ++ [w] ∧ w <+: full := by
  induction t generalizing s with
  | nil =>
    obtain ⟨full, rest, hs⟩ := List.exists_cons_of_ne_nil (pieces_ne_nil p s)
    exact ⟨[], [], full, rest, hs, rfl, List.nil_prefix⟩
  | cons c t ih =>
    obtain ⟨s, rfl, htail⟩ := List.cons_prefix_iff.mp h
    obtain ⟨ws, w, full, rest, hs, ht, hw⟩ := ih htail
    cases hc : p c with
    | true =>
      refine ⟨[] :: ws, w, full, rest, ?_, ?_, hw⟩
      · rw [pieces_separator hc, hs, List.cons_append]
      · rw [pieces_separator hc, ht, List.cons_append]
    | false =>
      obtain ⟨v, vs, hv, hcs⟩ := pieces_other hc s
      obtain ⟨u, us, hu, hct⟩ := pieces_other hc t
      rw [hs] at hv
      rw [ht] at hu
      rw [hcs, hct]
      cases ws with
      | nil =>
        obtain ⟨rfl, rfl⟩ := List.cons.inj hv
        obtain ⟨rfl, rfl⟩ := List.cons.inj hu
        exact ⟨[], c :: w, c :: full, rest, rfl, rfl, (List.prefix_cons_inj c).mpr hw⟩
      | cons first ws =>
        obtain ⟨rfl, rfl⟩ := List.cons.inj hv
        obtain ⟨rfl, rfl⟩ := List.cons.inj hu
        exact ⟨(c :: first) :: ws, w, full, rest, rfl, rfl, hw⟩

/-- A list can be cut within each of its pieces. -/
theorem exists_prefix_pieces (hs : pieces p s = ws ++ full :: rest) (hw : w <+: full) :
    ∃ t, t <+: s ∧ pieces p t = ws ++ [w] := by
  induction s generalizing ws full w with
  | nil =>
    cases ws with
    | nil =>
      obtain ⟨rfl, rfl⟩ := List.cons.inj hs
      exact ⟨[], List.nil_prefix, by rw [List.prefix_nil.mp hw]; rfl⟩
    | cons v vs => simp [pieces] at hs
  | cons c s ih =>
    cases hc : p c with
    | true =>
      rw [pieces_separator hc] at hs
      cases ws with
      | nil =>
        obtain ⟨rfl, rfl⟩ := List.cons.inj hs
        exact ⟨[], List.nil_prefix, by rw [List.prefix_nil.mp hw]; rfl⟩
      | cons v vs =>
        obtain ⟨rfl, htail⟩ := List.cons.inj hs
        obtain ⟨t, ht, hpieces⟩ := ih htail hw
        exact ⟨c :: t, (List.prefix_cons_inj c).mpr ht,
          by rw [pieces_separator hc, hpieces, List.cons_append]⟩
    | false =>
      obtain ⟨v, vs, hv, hcs⟩ := pieces_other hc s
      rw [hcs] at hs
      cases ws with
      | nil =>
        obtain ⟨rfl, rfl⟩ := List.cons.inj hs
        cases w with
        | nil => exact ⟨[], List.nil_prefix, rfl⟩
        | cons d w =>
          obtain ⟨rfl, htail⟩ := List.cons_prefix_cons.mp hw
          obtain ⟨t, ht, hpieces⟩ := ih (show _ = [] ++ v :: vs from hv) htail
          obtain ⟨u, us, hu, hct⟩ := pieces_other hc t
          rw [hpieces] at hu
          obtain ⟨rfl, rfl⟩ := List.cons.inj hu
          exact ⟨d :: t, (List.prefix_cons_inj d).mpr ht, hct⟩
      | cons first ws =>
        obtain ⟨rfl, rfl⟩ := List.cons.inj hs
        obtain ⟨t, ht, hpieces⟩ := ih (show _ = (v :: ws) ++ full :: rest from hv) hw
        obtain ⟨u, us, hu, hct⟩ := pieces_other hc t
        rw [hpieces] at hu
        obtain ⟨rfl, rfl⟩ := List.cons.inj hu
        exact ⟨c :: t, (List.prefix_cons_inj c).mpr ht, hct⟩

theorem words_prefix {s t : List Char} (h : t <+: s) (hne : words t ≠ []) :
    ∃ kept last whole rest, words s = kept ++ whole :: rest ∧ words t = kept ++ [last] ∧
      last <+: whole := by
  obtain ⟨ws, w, full, rest, hs, ht, hw⟩ := pieces_prefix (p := isBlank) h
  rw [words, ht, List.filter_append] at hne
  rw [words, words, hs, ht, List.filter_append, List.filter_append]
  cases w with
  | nil =>
    -- the cut is between two words
    have hnone : [[]].filter (fun w : List Char => !w.isEmpty) = [] := rfl
    rw [hnone, List.append_nil] at hne ⊢
    rcases List.eq_nil_or_concat (ws.filter fun w => !w.isEmpty) with hnil | ⟨kept, last, hlast⟩
    · exact absurd hnil hne
    · rw [hlast, List.concat_eq_append]
      exact ⟨kept, last, last, _, by rw [List.append_assoc]; rfl, rfl, List.prefix_rfl⟩
  | cons c w =>
    obtain ⟨v, rfl, -⟩ := List.cons_prefix_iff.mp hw
    exact ⟨_, c :: w, c :: v, _, rfl, rfl, hw⟩

theorem exists_prefix_words {s w : List Char} {ws : List (List Char)} (h : words s = w :: ws) :
    ∃ t, t <+: s ∧ words t = [w] := by
  obtain ⟨before, after, hs, hbefore, hw, -⟩ := List.filter_eq_cons_iff.mp h
  obtain ⟨t, ht, hpieces⟩ := exists_prefix_pieces hs (List.prefix_refl w)
  refine ⟨t, ht, ?_⟩
  have hlast : [w].filter (fun w => !w.isEmpty) = [w] := List.filter_cons_of_pos hw
  rw [words, hpieces, List.filter_append, hlast, List.filter_eq_nil_iff.mpr hbefore]
  rfl

theorem Utf8.encode_prefix {s : String} {t : List Char} (h : t <+: s.toList) :
    Utf8.encode (String.ofList t) <+: Utf8.encode s := by
  obtain ⟨r, hr⟩ := h
  have hs : s = String.ofList t ++ String.ofList r := by
    rw [← String.toList_inj, ← hr]
    simp
  exact ⟨Utf8.encode (String.ofList r), by rw [hs, Utf8.encode_append]⟩

end Text

namespace Blacklist

open Text

namespace Wire

variable {w full reply part : List UInt8} {ls rest : List (List UInt8)} {fs gs : List String}
  {k code : String}

/-- The first words are some of the second, in order, but the last of them may be cut off. -/
def CutWords (fs gs : List String) : Prop :=
  ∃ kept last whole rest, gs = kept ++ whole :: rest ∧ fs = kept ++ [last] ∧
    last.toList <+: whole.toList

theorem cutWords_self (hne : fs ≠ []) : CutWords fs fs := by
  rcases List.eq_nil_or_concat fs with hnil | ⟨kept, last, hlast⟩
  · exact absurd hnil hne
  · rw [hlast, List.concat_eq_append]
    exact ⟨kept, last, last, [], rfl, rfl, List.prefix_rfl⟩

theorem CutWords.head (h : CutWords (k :: fs) (code :: gs)) : k.toList <+: code.toList := by
  obtain ⟨kept, last, whole, rest, hgs, hfs, hlast⟩ := h
  cases kept with
  | nil =>
    obtain ⟨rfl, -⟩ := List.cons.inj hgs
    obtain ⟨rfl, -⟩ := List.cons.inj hfs
    exact hlast
  | cons first kept =>
    obtain ⟨rfl, -⟩ := List.cons.inj hgs
    obtain ⟨rfl, -⟩ := List.cons.inj hfs
    exact List.prefix_rfl

theorem Spells.cut (hw : Spells w fs) (hfull : Spells full gs) (h : w <+: full) (hne : fs ≠ []) :
    CutWords fs gs := by
  obtain ⟨t, rfl, rfl⟩ := hw
  obtain ⟨s, rfl, rfl⟩ := hfull
  have hwords : words t.toList ≠ [] := fun hnil => hne (by rw [wordsOf, hnil]; rfl)
  obtain ⟨kept, last, whole, rest, hs, ht, hlast⟩ :=
    words_prefix (Utf8.isPrefix_of_encode h) hwords
  refine ⟨kept.map String.ofList, String.ofList last, String.ofList whole,
    rest.map String.ofList, ?_, ?_, by simpa using hlast⟩
  · rw [wordsOf, hs, List.map_append, List.map_cons]
  · rw [wordsOf, ht, List.map_append, List.map_singleton]

/-- The flags of lines that are cut off in one of them. -/
theorem FirstWords.cut (hcut : FirstWords (ls ++ [w]) fs)
    (hwhole : FirstWords (ls ++ full :: rest) gs) (h : w <+: full) : CutWords fs gs := by
  induction ls with
  | nil =>
    cases hcut with
    | here hw hne =>
      cases hwhole with
      | here hfull _ => exact hw.cut hfull h hne
      | later hblank _ =>
        -- nothing but blanks is left of a blank line
        obtain ⟨kept, last, whole, rest, hnil, -⟩ := hw.cut hblank h hne
        simp at hnil
    | later _ hnone => cases hnone
  | cons line ls ih =>
    cases hcut with
    | here hline hne =>
      rw [List.cons_append, firstWords_here hline hne] at hwhole
      rw [hwhole]
      exact cutWords_self hne
    | later hblank hcut =>
      rw [List.cons_append, firstWords_blank hblank] at hwhole
      exact ih hcut hwhole

theorem Code.cut (hcode : Code k part) (hwhole : Code code reply) (h : part <+: reply) :
    k.toList <+: code.toList := by
  obtain ⟨ls, w, full, rest, hreply, hpart, hw⟩ := pieces_prefix (p := (· == 10)) h
  obtain ⟨line, later, more, hlines, hk⟩ := hcode
  obtain ⟨line', later', more', hlines', hc⟩ := hwhole
  rw [linesOf, hpart] at hlines
  rw [linesOf, hreply] at hlines'
  cases ls with
  | nil =>
    obtain ⟨rfl, -⟩ := List.cons.inj hlines
    obtain ⟨rfl, -⟩ := List.cons.inj hlines'
    exact (hk.cut hc hw (List.cons_ne_nil k more)).head
  | cons first ls =>
    obtain ⟨rfl, -⟩ := List.cons.inj hlines
    obtain ⟨rfl, -⟩ := List.cons.inj hlines'
    obtain ⟨rfl, -⟩ := List.cons.inj (hk.unique hc)
    exact List.prefix_rfl

theorem Flags.cut (hflags : Flags fs part) (hwhole : Flags gs reply) (h : part <+: reply) :
    CutWords fs gs := by
  obtain ⟨ls, w, full, rest, hreply, hpart, hw⟩ := pieces_prefix (p := (· == 10)) h
  obtain ⟨status, later, hlines, hfirst⟩ := hflags
  obtain ⟨status', later', hlines', hfirst'⟩ := hwhole
  rw [linesOf, hpart] at hlines
  rw [linesOf, hreply] at hlines'
  cases ls with
  | nil =>
    obtain ⟨-, rfl⟩ := List.cons.inj hlines
    cases hfirst
  | cons first ls =>
    obtain ⟨-, rfl⟩ := List.cons.inj hlines
    obtain ⟨-, rfl⟩ := List.cons.inj hlines'
    exact hfirst.cut hfirst' hw

def codes : List String :=
  coded.map Prod.fst

/-- A reply with nothing missing and nothing added, every line ended by a line feed. When an address
that is looked up is listed somewhere, the flags follow the status, after any number of blank
lines. -/
inductive Complete : Verb → List UInt8 → Prop
  | short {v : Verb} {reply line : List UInt8} {code : String} {more : List String} :
      linesOf reply = [line, []] → Spells line (code :: more) → code ∈ codes →
      ¬ (v = .lookup ∧ code = "200") → Complete v reply
  | flagged {reply line flagLine : List UInt8} {blanks : List (List UInt8)}
      {more flags : List String} :
      linesOf reply = line :: (blanks ++ [flagLine, []]) → Spells line ("200" :: more) →
      (∀ blank ∈ blanks, Spells blank []) → Spells flagLine flags → flags ≠ [] →
      (∀ f ∈ flags, f = "true" ∨ f = "false") → Complete .lookup reply

/-- The reply says no, though its flags start with a true one. -/
def TurnsFalse (v : Verb) (reply : List UInt8) : Prop :=
  v = .lookup ∧ Code "200" reply ∧
    ∃ rest, Flags ("true" :: rest) reply ∧ Flagged ("true" :: rest) false

theorem TurnsFalse.said {v : Verb} (h : TurnsFalse v reply) : Says v reply false := by
  obtain ⟨rfl, hcode, rest, hflags, hfalse⟩ := h
  exact .inr ⟨hcode, _, hflags, hfalse⟩

theorem firstWords_after_blanks {line : List UInt8} {blanks later : List (List UInt8)}
    (hblanks : ∀ blank ∈ blanks, Spells blank []) (hline : Spells line fs) (hne : fs ≠ []) :
    FirstWords (blanks ++ line :: later) fs := by
  induction blanks with
  | nil => exact .here hline hne
  | cons blank blanks ih =>
    rw [List.forall_mem_cons] at hblanks
    exact .later hblanks.1 (ih hblanks.2)

theorem Complete.exists_code {v : Verb} (h : Complete v reply) :
    ∃ code ∈ codes, Code code reply := by
  cases h with
  | short hlines hline hcode _ => exact ⟨_, hcode, _, _, _, hlines, hline⟩
  | flagged hlines hline _ _ _ _ => exact ⟨"200", by decide, _, _, _, hlines, hline⟩

theorem code_unique (hk : Code k reply) (hcode : Code code reply) : k = code := by
  obtain ⟨line, later, more, hlines, hspells⟩ := hk
  obtain ⟨line', later', more', hlines', hspells'⟩ := hcode
  obtain ⟨rfl, -⟩ := List.cons.inj (hlines.symm.trans hlines')
  exact (List.cons.inj (hspells.unique hspells')).1

theorem Complete.exists_flags (h : Complete .lookup reply) (hcode : Code "200" reply) :
    ∃ flags, Flags flags reply ∧ ∀ f ∈ flags, f = "true" ∨ f = "false" := by
  cases h with
  | short hlines hline hmem hnot =>
    exact absurd ⟨rfl, code_unique ⟨_, _, _, hlines, hline⟩ hcode⟩ hnot
  | flagged hlines hline hblanks hflags hne htf =>
    exact ⟨_, ⟨_, _, hlines, firstWords_after_blanks hblanks hflags hne⟩, htf⟩

/-- All codes are of one length, so that a part of one is none. -/
theorem code_eq_of_prefix : ∀ k ∈ codes, ∀ code ∈ codes, k.toList <+: code.toList → k = code := by
  decide

theorem flag_eq_of_prefix : ∀ f ∈ ["true", "false"], ∀ g ∈ ["true", "false"],
    f.toList <+: g.toList → f = g := by
  decide

theorem Complete.code_of_cut {v : Verb} (h : Complete v reply) (hpart : part <+: reply)
    (hk : k ∈ codes) (hcode : Code k part) : Code k reply := by
  obtain ⟨code, hmem, hwhole⟩ := h.exists_code
  obtain rfl := code_eq_of_prefix k hk code hmem (hcode.cut hwhole hpart)
  exact hwhole

/-- Flags that can be read are what the flags of the reply begin with. -/
theorem flags_prefix (hcut : CutWords fs gs) (hfs : ∀ f ∈ fs, f = "true" ∨ f = "false")
    (hgs : ∀ g ∈ gs, g = "true" ∨ g = "false") : ∃ lost, gs = fs ++ lost := by
  obtain ⟨kept, last, whole, rest, rfl, rfl, hlast⟩ := hcut
  have hlastFlag : last ∈ ["true", "false"] := by simpa using hfs last (by simp)
  have hwholeFlag : whole ∈ ["true", "false"] := by simpa using hgs whole (by simp)
  obtain rfl := flag_eq_of_prefix last hlastFlag whole hwholeFlag hlast
  exact ⟨rest, by simp⟩

theorem firstWords_ne_nil (h : FirstWords ls fs) : fs ≠ [] := by
  induction h with
  | here _ hne => exact hne
  | later _ _ ih => exact ih

/-- What a cut reply says the whole reply says too, unless the flags turn from true to false. -/
theorem Complete.says_of_cut {v : Verb} {b : Bool} (h : Complete v reply) (hpart : part <+: reply)
    (hsaid : Says v part b) :
    Says v reply b ∨ b = true ∧ TurnsFalse v reply := by
  have hcode {k : String} (hk : k ∈ codes) : Code k part → Code k reply :=
    h.code_of_cut hpart hk
  cases v with
  | add => cases b <;> exact .inl (hcode (by decide) hsaid)
  | remove => cases b <;> exact .inl (hcode (by decide) hsaid)
  | lookup =>
    cases b with
    | false =>
      rcases hsaid with h404 | ⟨h200, fs, hflags, htf, hfalse⟩
      · exact .inl (.inl (hcode (by decide) h404))
      · have h200 := hcode (by decide) h200
        obtain ⟨gs, hwhole, hgs⟩ := h.exists_flags h200
        obtain ⟨lost, rfl⟩ := flags_prefix (hflags.cut hwhole hpart) htf hgs
        exact .inl (.inr ⟨h200, _, hwhole, hgs, List.mem_append_left lost hfalse⟩)
    | true =>
      obtain ⟨h200, fs, hflags, htrue⟩ := hsaid
      have h200 := hcode (by decide) h200
      obtain ⟨gs, hwhole, hgs⟩ := h.exists_flags h200
      obtain ⟨lost, rfl⟩ :=
        flags_prefix (hflags.cut hwhole hpart) (fun f hf => .inl (htrue f hf)) hgs
      by_cases hlost : "false" ∈ lost
      · obtain ⟨_, _, _, hfirst⟩ := hflags
        obtain ⟨f, fs, rfl⟩ := List.exists_cons_of_ne_nil (firstWords_ne_nil hfirst)
        obtain rfl := htrue f List.mem_cons_self
        exact .inr ⟨rfl, rfl, h200, fs ++ lost, hwhole, hgs,
          List.mem_append_right ("true" :: fs) hlost⟩
      · refine .inl ⟨h200, _, hwhole, fun f hf => ?_⟩
        rcases List.mem_append.mp hf with hkept | hgone
        · exact htrue f hkept
        · refine (hgs f hf).resolve_right ?_
          rintro rfl
          exact hlost hgone

theorem FirstWords.exists_cut {f : String} (h : FirstWords ls (f :: fs)) :
    ∃ before w full rest, ls = before ++ full :: rest ∧ w <+: full ∧
      FirstWords (before ++ [w]) [f] := by
  generalize hws : f :: fs = ws at h
  induction h with
  | here hline hne =>
    subst hws
    obtain ⟨s, rfl, hs⟩ := hline
    obtain ⟨first, others, hwords, rfl, -⟩ := List.map_eq_cons_iff.mp hs
    obtain ⟨t, ht, hfirst⟩ := exists_prefix_words hwords
    refine ⟨[], _, _, _, rfl, Utf8.encode_prefix ht, .here ⟨_, rfl, ?_⟩ (List.cons_ne_nil _ _)⟩
    rw [wordsOf, String.toList_ofList, hfirst]
    rfl
  | later hblank _ ih =>
    obtain ⟨before, w, full, rest, rfl, hw, hcut⟩ := ih hws
    exact ⟨_ :: before, w, full, rest, rfl, hw, .later hblank hcut⟩

/-- Flags that turn from true to false can be cut off where they turn. -/
theorem TurnsFalse.exists_cut {v : Verb} (h : TurnsFalse v reply) :
    ∃ part, part <+: reply ∧ Says v part true := by
  obtain ⟨rfl, ⟨line, later, more, hlines, hline⟩, flags, ⟨line', later', hlines', hfirst⟩, -⟩ := h
  obtain ⟨rfl, rfl⟩ := List.cons.inj (hlines'.symm.trans hlines)
  obtain ⟨before, w, full, rest, rfl, hw, hcut⟩ := hfirst.exists_cut
  rw [← List.cons_append] at hlines
  obtain ⟨part, hpart, hpieces⟩ := exists_prefix_pieces hlines hw
  exact ⟨part, hpart, ⟨line', _, more, hpieces, hline⟩, ["true"], ⟨line', _, hpieces, hcut⟩,
    by simp [Flagged]⟩

end Wire

open Wire

variable {c : Call} {url : String} {reply : List UInt8}

/-- A connection that breaks within a complete reply leaves the answer as it is or none, whatever
the reply, except where the flags turn from true to false. There some cut takes the answer for yes,
and no cut of any reply takes yes for no. -/
theorem cut_reply_kept_iff (hurl : Url.accepted c.url = .ok url) (h : Complete c.verb reply) :
    ((∀ (part : List UInt8) (r r' : Remote), part <+: reply → r.Sends c reply → r'.Sends c part →
        (Remote.ask c r').1.answer = (Remote.ask c r).1.answer ∨
          ∃ why, (Remote.ask c r').1.answer = .error (.oracleUnavailable why)) ↔
      ¬ TurnsFalse c.verb reply) ∧
    ∀ (part : List UInt8) (r r' : Remote) (b : Bool), part <+: reply → r.Sends c reply →
      r'.Sends c part → (Remote.ask c r').1.answer = .ok b →
      (Remote.ask c r).1.answer = .ok b ∨ b = true ∧ (Remote.ask c r).1.answer = .ok false := by
  have hkept (part : List UInt8) (r r' : Remote) (b : Bool) (hpart : part <+: reply)
      (hr : r.Sends c reply) (hr' : r'.Sends c part) (hb : (Remote.ask c r').1.answer = .ok b) :
      (Remote.ask c r).1.answer = .ok b ∨ b = true ∧ TurnsFalse c.verb reply := by
    rw [hr'.answer_iff] at hb
    rw [hr.answer_iff]
    exact h.says_of_cut hpart hb
  refine ⟨⟨fun hall hturns => ?_, fun hturns part r r' hpart hr hr' => ?_⟩,
    fun part r r' b hpart hr hr' hb => ?_⟩
  · obtain ⟨part, hpart, hsaid⟩ := hturns.exists_cut
    have hr := Remote.sends_sending hurl reply
    have hr' := Remote.sends_sending hurl part
    have hno := (hr.answer_iff false).mpr hturns.said
    have hyes := (hr'.answer_iff true).mpr hsaid
    have hkept := hall part _ _ hpart hr hr'
    rw [hno, hyes] at hkept
    rcases hkept with hsame | ⟨why, hnone⟩
    · cases hsame
    · cases hnone
  · cases hb : (Remote.ask c r').1.answer with
    | ok b =>
      rcases hkept part r r' b hpart hr hr' hb with hsame | ⟨-, hturns'⟩
      · exact .inl hsame.symm
      · exact absurd hturns' hturns
    | error e =>
      obtain ⟨why, rfl⟩ := hr'.unavailable hb
      exact .inr ⟨why, rfl⟩
  · rcases hkept part r r' b hpart hr hr' hb with hsame | ⟨hyes, hturns⟩
    · exact .inl hsame
    · exact .inr ⟨hyes, (hr.answer_iff false).mpr hturns.said⟩

/-- Whatever is left of two true flags, the address is listed or there is no answer. -/
theorem cut_reply_kept_iff_listed :
    let whole := Utf8.encode "200 Ok\n\ntrue true\n"
    let c : Call := ⟨.lookup, " http://ä.b"⟩
    Url.accepted c.url = .ok "http://ä.b" ∧ Complete c.verb whole ∧
      ∀ (part : List UInt8) (r r' : Remote), part <+: whole → r.Sends c whole → r'.Sends c part →
        (Remote.ask c r').1.answer = (Remote.ask c r).1.answer ∨
          ∃ why, (Remote.ask c r').1.answer = .error (.oracleUnavailable why) := by
  intro whole c
  have hurl : Url.accepted c.url = .ok "http://ä.b" := by decide +kernel
  have hlines : linesOf whole =
      Utf8.encode "200 Ok" :: ([[]] ++ [Utf8.encode "true true", []]) := by decide +kernel
  have hstatus : Spells (Utf8.encode "200 Ok") ["200", "Ok"] := ⟨_, rfl, by decide +kernel⟩
  have hblanks : ∀ blank ∈ [[]], Spells blank [] :=
    List.forall_mem_singleton.mpr ⟨"", by decide +kernel, rfl⟩
  have hflags : Spells (Utf8.encode "true true") ["true", "true"] := ⟨_, rfl, by decide +kernel⟩
  have hwhole : Complete c.verb whole :=
    .flagged hlines hstatus hblanks hflags (by decide) (by decide)
  refine ⟨hurl, hwhole, (cut_reply_kept_iff hurl hwhole).1.mpr fun hturns => ?_⟩
  have hyes : (Remote.ask c (Remote.sending whole)).1.answer = .ok true := by decide +kernel
  rw [((Remote.sends_sending hurl whole).answer_iff false).mpr hturns.said] at hyes
  cases hyes

/-- The service says no and the connection breaks after the first of the two flags. The client takes
what is left for yes. -/
theorem cut_between_flags :
    let whole := Utf8.encode "200 Ok\n\ntrue false\n"
    let part := Utf8.encode "200 Ok\n\ntrue"
    let c : Call := ⟨.lookup, "http://a.test"⟩
    Complete c.verb whole ∧ part <+: whole ∧ part ≠ whole ∧
      (Remote.sending whole).Sends c whole ∧ (Remote.sending part).Sends c part ∧
      (Remote.ask c (Remote.sending whole)).1.answer = .ok false ∧
      (Remote.ask c (Remote.sending part)).1.answer = .ok true := by
  intro whole part c
  have hurl : Url.accepted c.url = .ok "http://a.test" := by decide +kernel
  have hlines : linesOf whole =
      Utf8.encode "200 Ok" :: ([[]] ++ [Utf8.encode "true false", []]) := by decide +kernel
  have hstatus : Spells (Utf8.encode "200 Ok") ["200", "Ok"] := ⟨_, rfl, by decide +kernel⟩
  have hblanks : ∀ blank ∈ [[]], Spells blank [] :=
    List.forall_mem_singleton.mpr ⟨"", by decide +kernel, rfl⟩
  have hflags : Spells (Utf8.encode "true false") ["true", "false"] := ⟨_, rfl, by decide +kernel⟩
  have hwhole : Complete c.verb whole :=
    .flagged hlines hstatus hblanks hflags (by decide) (by decide)
  exact ⟨hwhole, by decide +kernel, by decide +kernel, Remote.sends_sending hurl whole,
    Remote.sends_sending hurl part, by decide +kernel, by decide +kernel⟩

end Blacklist

end LabelMail
