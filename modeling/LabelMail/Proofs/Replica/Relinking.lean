import LabelMail.Proofs.Replica.Series

/-!
A relinking statement by statement. How many of its statements pass before one is refused is up to
the plan of the database, and what the relinking leaves behind depends on that number and on the
rows that it found. Wherever it stops, it stops on the way to the same rows: done again from there,
it ends as if it had never stopped.
-/
namespace LabelMail

namespace Database

variable {ρ ω : Type} {plan : Nat → List ω → Option Refusal} {count : Nat}
variable {first rest : List (List ω)}

/-- How many statements with these writes pass, the first of which has the number `count`. -/
def passed (plan : Nat → List ω → Option Refusal) : (count : Nat) → List (List ω) → Nat
  | _, [] => 0
  | count, writes :: rest =>
    if (plan count writes).isNone then passed plan (count + 1) rest + 1 else 0

theorem passed_append_of_all (h : passed plan count first = first.length) :
    passed plan count (first ++ rest) =
      first.length + passed plan (count + first.length) rest := by
  induction first generalizing count with
  | nil => simp
  | cons writes first ih =>
    rw [passed] at h
    split at h
    · next hpass =>
      rw [List.cons_append, passed, if_pos hpass, ih (Nat.succ.inj h), List.length_cons,
        Nat.add_right_comm, Nat.add_assoc count, Nat.add_comm 1]
    · cases h

theorem passed_append_of_lt (h : passed plan count first < first.length) :
    passed plan count (first ++ rest) = passed plan count first := by
  induction first generalizing count with
  | nil => cases h
  | cons writes first ih =>
    rw [passed] at h ⊢
    rw [List.cons_append, passed]
    split at h
    · next hpass => rw [if_pos hpass, if_pos hpass, ih (Nat.lt_of_succ_lt_succ h)]
    · next hstop => rw [if_neg hstop, if_neg hstop]

theorem Sound.passed {db : Database ρ ω} (hs : db.Sound) (statements : List (List ω)) :
    Database.passed db.plan db.count statements = statements.length := by
  suffices ∀ count, db.count ≤ count →
      Database.passed db.plan count statements = statements.length from this _ (Nat.le_refl _)
  intro count hcount
  induction statements generalizing count with
  | nil => rfl
  | cons writes rest ih =>
    have hpass : (db.plan count writes).isNone = true := by rw [hs count writes hcount]; rfl
    rw [Database.passed, if_pos hpass, ih _ (Nat.le_succ_of_le hcount), List.length_cons]

end Database

namespace Replica

/-- How many statements with these writes pass in this replica. -/
def passes (r : Replica) (statements : List (List Write)) : Nat :=
  Database.passed r.database.plan r.database.count statements

/-- The query makes statements with these writes. It succeeds with a value and rows in `Q` if all of
them pass. Otherwise it fails at the first that is refused, and `E` says how, from the number of
those that passed. -/
def Course (r : Replica) (q : Query α) (statements : List (List Write)) (Q : α → Rows → Prop)
    (E : Nat → Failure → Rows → Prop) : Prop :=
  Ends (q r)
    (fun a r' => r.passes statements = statements.length ∧ Q a r'.rows ∧
      r'.database.plan = r.database.plan ∧
      r'.database.count = r.database.count + statements.length)
    (fun e r' => r.passes statements < statements.length ∧ E (r.passes statements) e r'.rows ∧
      r'.database.plan = r.database.plan)

variable {α β : Type} {r : Replica} {q : Query α} {f : α → Query β} {Q Q' : α → Rows → Prop}
variable {S : β → Rows → Prop} {E F : Nat → Failure → Rows → Prop}
variable {first rest : List (List Write)} {id owner : String} {labelIds : List String} {k : Nat}

namespace Course

theorem mono (hq : Course r q first Q E) (hQ : ∀ a R, Q a R → Q' a R)
    (hE : ∀ p e R, p < first.length → E p e R → F p e R) : Course r q first Q' F :=
  Ends.mono hq (fun a _ h => ⟨h.1, hQ a _ h.2.1, h.2.2⟩) fun e _ h =>
    ⟨h.1, hE _ e _ h.1 h.2.1, h.2.2⟩

theorem pure {a : α} (hQ : Q a r.rows) : Course r (pure a) [] Q E :=
  .of_ok ⟨rfl, hQ, rfl, rfl⟩

theorem bind (hq : Course r q first Q E)
    (hf : ∀ a r', Q a r'.rows → Course r' (f a) rest S fun p => F (first.length + p))
    (hE : ∀ p e R, p < first.length → E p e R → F p e R) :
    Course r (q >>= f) (first ++ rest) S F := by
  refine Ends.bind hq (fun a r' h => ?_) fun e r' h => ?_
  · obtain ⟨hall, hQ, hplan, hcount⟩ := h
    have hpasses : r.passes (first ++ rest) = first.length + r'.passes rest := by
      rw [passes, Database.passed_append_of_all hall, passes, hplan, hcount]
    rw [hpasses, List.length_append]
    refine Ends.mono (hf a r' hQ) (fun b r'' h' => ?_) fun e r'' h' => ?_
    · obtain ⟨hall', hS, hplan', hcount'⟩ := h'
      exact ⟨by rw [hall'], hS, hplan'.trans hplan, by rw [hcount', hcount, Nat.add_assoc]⟩
    · exact ⟨Nat.add_lt_add_left h'.1 _, h'.2.1, h'.2.2.trans hplan⟩
  · obtain ⟨hlt, hfail, hplan⟩ := h
    have hpasses : r.passes (first ++ rest) = r.passes first := Database.passed_append_of_lt hlt
    rw [hpasses, List.length_append]
    exact ⟨Nat.lt_add_right _ hlt, hE _ e _ hlt hfail, hplan⟩

/-- What follows makes no statement. -/
theorem bind_idle (hq : Course r q first Q E)
    (hf : ∀ a r', Q a r'.rows → Course r' (f a) [] S fun _ _ _ => False) :
    Course r (q >>= f) first S E := by
  rw [← List.append_nil first]
  exact hq.bind (fun a r' h => (hf a r' h).mono (fun _ _ h => h) fun _ _ _ _ h => h.elim)
    fun _ _ _ _ h => h

/-- The first of the queries makes one statement. -/
theorem bind_cons {writes : List Write} (hq : Course r q [writes] Q E)
    (hf : ∀ a r', Q a r'.rows → Course r' (f a) rest S fun p => F (p + 1))
    (hE : ∀ e R, E 0 e R → F 0 e R) : Course r (q >>= f) (writes :: rest) S F := by
  rw [← List.singleton_append]
  refine hq.bind (fun a r' h => ?_) fun p e R hp h => ?_
  · simp only [List.length_singleton, Nat.add_comm 1]
    exact hf a r' h
  · obtain rfl : p = 0 := Nat.lt_one_iff.mp hp
    exact hE e R h

theorem discard {T : Rows → Prop} (hq : Course r q first (fun _ => T) E) :
    Course r (Functor.discard q) first (fun _ => T) E :=
  Ends.discard (T := fun _ r' => r.passes first = first.length ∧ T (rows r') ∧
    r'.database.plan = r.database.plan ∧ r'.database.count = r.database.count + first.length) hq

theorem announce {T : Rows → Prop} (hT : T r.rows) :
    Course r Replica.announce [] (fun _ => T) E :=
  .of_ok ⟨rfl, hT, rfl, rfl⟩

/-- One statement, which leaves the rows alone if it is refused. -/
theorem statement (writes : Rows → List Write) (g : Rows → α × Rows) :
    Course r (onDatabase (Replica.statement writes g)) [writes r.rows]
      (fun a R => g r.rows = (a, R)) (fun _ e R => e = .database "" ∧ R = r.rows) := by
  unfold Course onDatabase Replica.statement Database.modifyRows Database.statement passes
  dsimp only [rows]
  cases hplan : r.database.plan r.database.count (writes r.database.rows) with
  | none => exact .of_ok ⟨by simp [Database.passed, hplan], rfl, rfl, rfl⟩
  | some refusal =>
    refine .of_error ⟨by simp [Database.passed, hplan], ⟨?_, rfl⟩, rfl⟩
    cases refusal <;> rfl

theorem interrupt {e : Failure} (hq : Course r q first Q fun p _ R => E p e R) :
    Course r (Replica.interrupt e q) first Q E := by
  unfold Course Replica.interrupt
  split
  · next a r' hr => exact .of_ok (hq.ok a r' hr)
  · next e' r' hr => exact .of_error (hq.error e' r' hr)

end Course

namespace Rows

/-- The ids among these for which there is no label. -/
def unknown (R : Rows) (labelIds : List String) : List String :=
  labelIds.filter fun i => !hasLabel R i

/-- Labels that stand in for these ids are there as well. -/
def enterAll (owner : String) (labelIds : List String) (R : Rows) : Rows :=
  { R with labels := R.labels ++ labelIds.map (placeholder owner) }

/-- These labels are there as well, but for those whose ids are taken. -/
def enterNew (R : Rows) (labels : List Label) : Rows :=
  labels.foldl (fun R l => if hasLabel R l.id then R else R.enterLabel l) R

/-- The links of the message are those to these labels. -/
def linkOnly (id : String) (labelIds : List String) (R : Rows) : Rows :=
  { R with links := R.links.filter (·.messageId != id) ++ labelIds.map (Link.mk id) }

/-- The rows that a relinking is on the way to. -/
def relinked (id owner : String) (labelIds : List String) (R : Rows) : Rows :=
  (R.enterAll owner (R.unknown labelIds)).linkOnly id labelIds

/-- The writes of the statements with which a relinking gets ready to link. It looks each label up,
enters the unknown ones and clears the links. -/
def preparation (R : Rows) (id : String) (labelIds : List String) : List (List Write) :=
  labelIds.map (fun _ => []) ++ (R.unknown labelIds).map (fun i => [.putLabel i]) ++
    [(R.links.filter (·.messageId == id)).map fun l => .deleteLink l.messageId]

def linking (labelIds : List String) : List (List Write) :=
  labelIds.map fun i => [.insertLink i]

/-- A relinking stopped after so many statements, with this failure, and left these rows. -/
inductive Broken (id owner : String) (labelIds : List String) (R : Rows) :
    Nat → Failure → Rows → Prop
  | asking {k : Nat} : k < labelIds.length → Broken id owner labelIds R k (.database "") R
  | entering {k : Nat} : k < (R.unknown labelIds).length →
      Broken id owner labelIds R (labelIds.length + k) (.database "")
        (R.enterAll owner ((R.unknown labelIds).take k))
  | clearing : Broken id owner labelIds R (labelIds.length + (R.unknown labelIds).length)
      (.database "") (R.enterAll owner (R.unknown labelIds))
  | linking {k : Nat} : k < labelIds.length →
      Broken id owner labelIds R ((R.preparation id labelIds).length + k)
        (.interrupted id k labelIds.length)
        ((R.enterAll owner (R.unknown labelIds)).linkOnly id (labelIds.take k))

variable {R : Rows}

@[simp] theorem preparation_length :
    (R.preparation id labelIds).length = labelIds.length + (R.unknown labelIds).length + 1 := by
  simp [preparation, Nat.add_assoc]

@[simp] theorem linking_length : (linking labelIds).length = labelIds.length := by
  simp [linking]

theorem hasLabel_enterAll (owner : String) (labelIds : List String) (R : Rows) (i : String) :
    hasLabel (R.enterAll owner labelIds) i = (hasLabel R i || labelIds.contains i) := by
  rw [Bool.eq_iff_iff]
  simp [hasLabel, enterAll, placeholder_id, or_comm]

theorem enterAll_nil (owner : String) (R : Rows) : R.enterAll owner [] = R := by
  simp [enterAll]

theorem enterAll_enterAll (owner : String) (labelIds others : List String) (R : Rows) :
    (R.enterAll owner labelIds).enterAll owner others = R.enterAll owner (labelIds ++ others) := by
  simp [enterAll]

theorem enterNew_cons (l : Label) (labels : List Label) :
    R.enterNew (l :: labels) =
      if hasLabel R l.id then R.enterNew labels else (R.enterLabel l).enterNew labels := by
  rw [enterNew, List.foldl_cons]
  split <;> rfl

/-- Of labels that are all new none is passed over. -/
theorem enterNew_placeholders (hnodup : labelIds.Nodup)
    (hfree : ∀ i ∈ labelIds, hasLabel R i = false) :
    R.enterNew (labelIds.map (placeholder owner)) = R.enterAll owner labelIds := by
  induction labelIds generalizing R with
  | nil => exact (enterAll_nil owner R).symm
  | cons i labelIds ih =>
    obtain ⟨hi, hrest⟩ := List.nodup_cons.mp hnodup
    have hfirst : R.enterLabel (placeholder owner i) = R.enterAll owner [i] := rfl
    have hfree₁ : ∀ j ∈ labelIds, hasLabel (R.enterAll owner [i]) j = false := by
      intro j hj
      have hne : j ≠ i := fun heq => hi (heq ▸ hj)
      rw [hasLabel_enterAll, hfree j (List.mem_cons_of_mem i hj)]
      simpa using hne
    rw [List.map_cons, enterNew_cons, placeholder_id, hfree i List.mem_cons_self,
      if_neg Bool.false_ne_true, hfirst, ih hrest hfree₁, enterAll_enterAll, List.singleton_append]

/-- Links of the message that were made before are gone with the others. -/
theorem linkOnly_linkOnly (labelIds others : List String) (R : Rows) :
    (R.linkOnly id labelIds).linkOnly id others = R.linkOnly id others := by
  simp [linkOnly, List.filter_append]

theorem nodup_unknown (hnodup : labelIds.Nodup) : (R.unknown labelIds).Nodup :=
  hnodup.filter _

theorem unknown_linkOnly (others : List String) :
    (R.linkOnly id others).unknown labelIds = R.unknown labelIds := rfl

theorem enterAll_linkOnly (others : List String) :
    (R.linkOnly id labelIds).enterAll owner others =
      (R.enterAll owner others).linkOnly id labelIds := rfl

end Rows

variable {R R' : Rows} {i : String} {done : List String} {expected p : Nat} {e : Failure}

theorem course_select (g : Rows → α) :
    Course r (select g) [[]] (fun a R => a = g r.rows ∧ R = r.rows)
      (fun _ e R => e = .database "" ∧ R = r.rows) :=
  (Course.statement (fun _ => []) fun rows => (g rows, rows)).mono
    (fun _ _ h => ⟨(Prod.mk.inj h).1.symm, (Prod.mk.inj h).2.symm⟩) fun _ _ _ _ h => h

theorem course_findLabel (i : String) :
    Course r (findLabel i) [[]] (fun l R => l.isSome = hasLabel r.rows i ∧ R = r.rows)
      (fun _ e R => e = .database "" ∧ R = r.rows) := by
  refine (course_select _).bind_idle fun l r' hl => .pure ⟨?_, hl.2⟩
  rw [hl.1, Option.isSome_map, Bool.eq_iff_iff, List.find?_isSome, hasLabel, List.any_eq_true]

theorem course_unknownLabels (labelIds : List String) :
    Course r (unknownLabels labelIds) (labelIds.map fun _ => [])
      (fun unknown R => unknown = r.rows.unknown labelIds ∧ R = r.rows)
      (fun _ e R => e = .database "" ∧ R = r.rows) := by
  induction labelIds generalizing r with
  | nil => exact .pure ⟨rfl, rfl⟩
  | cons i labelIds ih =>
    rw [List.map_cons]
    refine (course_findLabel i).bind_cons (fun l r₁ hl => ?_) fun _ _ h => h
    obtain ⟨hsome, hrows₁⟩ := hl
    rw [← hrows₁]
    refine (ih (r := r₁)).bind_idle fun unknown r₂ hunknown => .pure ⟨?_, hunknown.2⟩
    rw [hunknown.1, hsome, hrows₁, Rows.unknown, Rows.unknown, List.filter_cons]
    cases hasLabel r.rows i <;> rfl

theorem course_insertLabel (l : Label) :
    Course r (onDatabase (insertLabel l)) [[.putLabel l.id]]
      (fun b R => b = !hasLabel r.rows l.id ∧ R = r.rows.enterNew [l])
      (fun _ e R => e = .database "" ∧ R = r.rows) := by
  refine (Course.statement _ _).mono (fun b R h => ?_) fun _ _ _ _ h => h
  rw [Rows.enterNew_cons]
  split at h
  · next hthere =>
    obtain ⟨rfl, rfl⟩ := Prod.mk.inj h
    rw [hthere, if_pos rfl]
    exact ⟨rfl, rfl⟩
  · next hnew =>
    obtain ⟨rfl, rfl⟩ := Prod.mk.inj h
    rw [if_neg hnew, Bool.eq_false_iff.mpr hnew]
    exact ⟨rfl, rfl⟩

/-- New labels are entered one by one, so that those before a refused one stay. If none is refused,
it is counted how many went in. -/
theorem course_insertEach (labels : List Label) :
    Course r (labels.mapM fun l => onDatabase (insertLabel l))
      (labels.map fun l => [.putLabel l.id])
      (fun bs R => (bs.count true = 0 ↔ ∀ l ∈ labels, hasLabel r.rows l.id = true) ∧
        R = r.rows.enterNew labels)
      (fun p e R => e = .database "" ∧ R = r.rows.enterNew (labels.take p)) := by
  induction labels generalizing r with
  | nil => exact .pure ⟨by simp, rfl⟩
  | cons l labels ih =>
    rw [List.mapM_cons, List.map_cons]
    refine (course_insertLabel l).bind_cons (fun b r₁ h₁ => ?_) fun e R h => h
    obtain ⟨rfl, hrows₁⟩ := h₁
    have hrest := ih (r := r₁)
    rw [hrows₁] at hrest
    refine hrest.bind_idle fun bs r₂ h₂ => .pure ⟨?_, h₂.2⟩
    rw [List.forall_mem_cons]
    cases hthere : hasLabel r.rows l.id with
    | true =>
      have hsame : r.rows.enterNew [l] = r.rows := by
        rw [Rows.enterNew_cons, if_pos hthere]
        rfl
      rw [hsame] at h₂
      simpa using h₂.1
    | false => simp

theorem course_insertLabels (hnodup : labelIds.Nodup)
    (hfree : ∀ i ∈ labelIds, hasLabel r.rows i = false) :
    Course r (insertLabels (labelIds.map (placeholder owner)))
      (labelIds.map fun i => [.putLabel i]) (fun _ R => R = r.rows.enterAll owner labelIds)
      (fun p e R => e = .database "" ∧ R = r.rows.enterAll owner (labelIds.take p)) := by
  have hwrites : (labelIds.map (placeholder owner)).map (fun l => [Write.putLabel l.id]) =
      labelIds.map fun i => [.putLabel i] := by
    simp [placeholder_id]
  have hpart (p : Nat) : r.rows.enterNew ((labelIds.map (placeholder owner)).take p) =
      r.rows.enterAll owner (labelIds.take p) := by
    rw [← List.map_take]
    exact Rows.enterNew_placeholders (hnodup.sublist (List.take_sublist p labelIds))
      fun i hi => hfree i (List.mem_of_mem_take hi)
  have heach := course_insertEach (r := r) (labelIds.map (placeholder owner))
  rw [hwrites] at heach
  refine (heach.mono (fun _ R h => h.2.trans (Rows.enterNew_placeholders hnodup hfree))
    fun p e R _ h => ⟨h.1, h.2.trans (hpart p)⟩).bind_idle fun added r₁ h₁ => ?_
  dsimp only
  split
  · exact (Course.announce (T := fun R => R = r₁.rows) rfl).bind_idle fun _ r₂ h₂ =>
      .pure (h₂.trans h₁)
  · exact .pure h₁

theorem course_clearLinks (id : String) :
    Course r (clearLinks id)
      [(r.rows.links.filter (·.messageId == id)).map fun l => .deleteLink l.messageId]
      (fun _ R => R = r.rows.linkOnly id []) (fun _ e R => e = .database "" ∧ R = r.rows) := by
  have hunlink : Course r (onDatabase (unlink (·.messageId == id)))
      [(r.rows.links.filter (·.messageId == id)).map fun l => .deleteLink l.messageId]
      (fun _ R => R = r.rows.linkOnly id []) (fun _ e R => e = .database "" ∧ R = r.rows) := by
    refine (Course.statement _ _).mono (fun n R h => ?_) fun _ _ _ _ h => h
    rw [← (Prod.mk.inj h).2, Rows.linkOnly, List.map_nil, List.append_nil]
    rfl
  refine hunlink.bind_idle fun n r₁ h₁ => ?_
  exact (Course.announce (T := fun R => R = r₁.rows) rfl).bind_idle fun _ r₂ h₂ =>
    .pure (h₂.trans h₁)

theorem course_addLink {l : Link} (hfree : l ∉ r.rows.links) :
    Course r (addLink l) [[.insertLink l.labelId]]
      (fun _ R => R = { r.rows with links := r.rows.links ++ [l] })
      (fun _ e R => e = .database "" ∧ R = r.rows) := by
  refine (Course.statement _ _).bind_idle fun _ r₁ h₁ => .announce ?_
  rw [← (Prod.mk.inj h₁).2, if_neg hfree]

/-- The links are made one by one, so that those before a refused one stay. -/
theorem course_addLinks (hrows : r.rows = R.linkOnly id done) (hnodup : (done ++ labelIds).Nodup) :
    Course r (addLinks id expected done.length labelIds) (Rows.linking labelIds)
      (fun _ R' => R' = R.linkOnly id (done ++ labelIds))
      (fun p e R' => e = .interrupted id (done.length + p) expected ∧
        R' = R.linkOnly id (done ++ labelIds.take p)) := by
  induction labelIds generalizing r done with
  | nil => exact .pure (by rw [hrows, List.append_nil])
  | cons i labelIds ih =>
    have hfree : ⟨id, i⟩ ∉ r.rows.links := by
      have hi : i ∉ done := fun hmem =>
        (List.nodup_append.mp hnodup).2.2 i hmem i List.mem_cons_self rfl
      rw [hrows]
      simpa [Rows.linkOnly] using hi
    have hfirst : Course r (interrupt (.interrupted id done.length expected) (addLink ⟨id, i⟩))
        [[.insertLink i]] (fun _ R' => R' = R.linkOnly id (done ++ [i]))
        (fun _ e R' => e = .interrupted id done.length expected ∧ R' = r.rows) := by
      refine .interrupt ((course_addLink hfree).mono (fun _ R' h => ?_) fun _ _ _ _ h => ⟨rfl, h.2⟩)
      rw [h, hrows]
      simp [Rows.linkOnly]
    rw [Rows.linking, List.map_cons]
    refine hfirst.bind_cons (fun _ r₁ h₁ => ?_) fun e R' h => ?_
    · rw [List.append_cons] at hnodup
      have hrest := ih h₁ hnodup
      simp only [List.length_append, List.length_singleton, List.append_assoc,
        List.singleton_append, Nat.add_assoc, Nat.add_comm 1] at hrest
      exact hrest
    · rw [List.take_zero, List.append_nil, ← hrows]
      exact h

/-- What is known of a relinking as a whole, from the courses of its four parts. -/
theorem course_relink (hnodup : labelIds.Nodup) :
    Course r (relink id owner labelIds)
      (r.rows.preparation id labelIds ++ Rows.linking labelIds)
      (fun n R => n = labelIds.length ∧ R = r.rows.relinked id owner labelIds)
      (r.rows.Broken id owner labelIds) := by
  rw [Rows.preparation, List.append_assoc, List.append_assoc, List.singleton_append]
  refine (course_unknownLabels labelIds).bind (fun unknown r₁ h₁ => ?_) fun p e R hp h => ?_
  · obtain ⟨rfl, hrows₁⟩ := h₁
    have hfree : ∀ i ∈ r.rows.unknown labelIds, hasLabel r₁.rows i = false := by
      intro i hi
      rw [hrows₁]
      simpa using (List.mem_filter.mp hi).2
    have hinsert : Course r₁ (insertLabels ((r.rows.unknown labelIds).map (placeholder owner)))
      _ _ _ := course_insertLabels (Rows.nodup_unknown hnodup) hfree
    rw [hrows₁] at hinsert
    refine (Course.discard (T := fun R => R = r.rows.enterAll owner (r.rows.unknown labelIds))
      hinsert).bind (fun _ r₂ h₂ => ?_) fun p e R hp h => ?_
    · have hclear := course_clearLinks (r := r₂) id
      rw [h₂] at hclear
      refine (Course.discard (T := fun R => R =
        (r.rows.enterAll owner (r.rows.unknown labelIds)).linkOnly id []) hclear).bind_cons
          (fun _ r₃ h₃ => ?_) fun e R h => ?_
      · have hstart : r₃.rows =
            (r.rows.enterAll owner (r.rows.unknown labelIds)).linkOnly id [] := h₃
        refine ((course_addLinks hstart hnodup).mono (fun _ _ h => h)
          fun p e R hp h => ?_).bind_idle fun _ r₄ h₄ => .pure ⟨rfl, h₄⟩
        obtain ⟨rfl, rfl⟩ := h
        rw [Rows.linking_length] at hp
        have hplace : (labelIds.map fun _ => ([] : List Write)).length +
            (((r.rows.unknown labelIds).map fun i => [Write.putLabel i]).length + (p + 1)) =
              (r.rows.preparation id labelIds).length + p := by
          simp
          omega
        rw [hplace, List.nil_append, List.length_nil, Nat.zero_add]
        exact .linking hp
      · obtain ⟨rfl, rfl⟩ := h
        rw [List.length_map, List.length_map]
        exact .clearing
    · obtain ⟨rfl, rfl⟩ := h
      rw [List.length_map] at hp ⊢
      exact .entering hp
  · obtain ⟨rfl, rfl⟩ := h
    rw [List.length_map] at hp
    exact .asking hp

namespace Rows

theorem known_enterAll_unknown (hi : i ∈ labelIds) :
    hasLabel (R.enterAll owner (R.unknown labelIds)) i = true := by
  rw [hasLabel_enterAll, Bool.or_eq_true, List.contains_iff_mem, unknown, List.mem_filter]
  cases hasLabel R i <;> simp [hi]

/-- Once some of the unknown labels are entered, the others are left. -/
theorem unknown_enterAll_take (hnodup : labelIds.Nodup) (k : Nat) :
    (R.enterAll owner ((R.unknown labelIds).take k)).unknown labelIds =
      (R.unknown labelIds).drop k := by
  have hapart : ∀ i ∈ (R.unknown labelIds).drop k, i ∉ (R.unknown labelIds).take k := by
    have hunknown : ((R.unknown labelIds).take k ++ (R.unknown labelIds).drop k).Nodup := by
      rw [List.take_append_drop]
      exact nodup_unknown hnodup
    exact fun i hi hi' => (List.nodup_append.mp hunknown).2.2 i hi' i hi rfl
  calc (R.enterAll owner ((R.unknown labelIds).take k)).unknown labelIds
      = (R.unknown labelIds).filter fun i => !((R.unknown labelIds).take k).contains i := by
        rw [unknown, unknown, List.filter_filter]
        simp only [hasLabel_enterAll, Bool.not_or, Bool.and_comm]
    _ = ((R.unknown labelIds).take k ++ (R.unknown labelIds).drop k).filter
          fun i => !((R.unknown labelIds).take k).contains i := by
        rw [List.take_append_drop]
    _ = (R.unknown labelIds).drop k := by
        rw [List.filter_append, List.filter_eq_nil_iff.mpr, List.nil_append,
          List.filter_eq_self.mpr]
        · exact fun i hi => by simpa using hapart i hi
        · exact fun i hi => by simpa using hi

theorem relinked_enterAll_take (hnodup : labelIds.Nodup) (k : Nat) :
    (R.enterAll owner ((R.unknown labelIds).take k)).relinked id owner labelIds =
      R.relinked id owner labelIds := by
  rw [relinked, unknown_enterAll_take hnodup, enterAll_enterAll, List.take_append_drop, relinked]

/-- What was linked before makes no difference. -/
theorem relinked_linkOnly (others : List String) :
    (R.linkOnly id others).relinked id owner labelIds = R.relinked id owner labelIds := by
  rw [relinked, unknown_linkOnly, enterAll_linkOnly, linkOnly_linkOnly, relinked]

theorem relinked_enterAll (hnodup : labelIds.Nodup) :
    (R.enterAll owner (R.unknown labelIds)).relinked id owner labelIds =
      R.relinked id owner labelIds := by
  have hall : (R.enterAll owner ((R.unknown labelIds).take (R.unknown labelIds).length)).relinked
      id owner labelIds = _ := relinked_enterAll_take hnodup _
  rwa [List.take_length] at hall

/-- A relinking changes nothing where it went through already. -/
theorem relinked_relinked (hnodup : labelIds.Nodup) :
    (R.relinked id owner labelIds).relinked id owner labelIds = R.relinked id owner labelIds :=
  (relinked_linkOnly labelIds).trans (relinked_enterAll hnodup)

/-- Wherever a relinking stopped, it was on the way to the same rows. -/
theorem Broken.relinked (hbroken : R.Broken id owner labelIds p e R') (hnodup : labelIds.Nodup) :
    R'.relinked id owner labelIds = R.relinked id owner labelIds := by
  cases hbroken with
  | asking => rfl
  | entering => exact relinked_enterAll_take hnodup _
  | clearing => exact relinked_enterAll hnodup
  | linking => rw [relinked_linkOnly, relinked_enterAll hnodup]

/-- If the preparation passed, it is a link that was refused. -/
theorem Broken.of_linking
    (hbroken : R.Broken id owner labelIds ((R.preparation id labelIds).length + k) e R') :
    e = .interrupted id k labelIds.length ∧
      R' = (R.enterAll owner (R.unknown labelIds)).linkOnly id (labelIds.take k) := by
  generalize hp : (R.preparation id labelIds).length + k = p at hbroken
  cases hbroken with
  | linking hk =>
    obtain rfl := Nat.add_left_cancel hp
    exact ⟨rfl, rfl⟩
  | _ =>
    rw [preparation_length] at hp
    omega

end Rows

end Replica

end LabelMail
