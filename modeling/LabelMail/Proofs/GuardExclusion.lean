import LabelMail.Proofs.Guards.Release

/-!
What guards exclude. Main statement: whatever was asked for, given back, given up or struck out
before, an id has one guard at most and is to be had exactly when it has none; and it has none any
more when its guard is given back, unless somebody waits for it.
-/
namespace LabelMail.GuardBook

variable {b b' : GuardBook} {c : Call} {g : Guard} {id : String} {ids rest : List String} {n : Nat}

/-! ### Answering a call -/

structure Orderly (b : GuardBook) : Prop where
  exclusive : b.Exclusive
  accounted : b.Accounted

/-- A book in which an id has just been given its slot. -/
structure Entered (b : GuardBook) (id : String) (b' : GuardBook) (n : Nat) : Prop where
  same : ∃ slots made, b' = { b with slots := slots, made := made }
  exclusive : b'.Exclusive
  slot : (id, n) ∈ b'.slots
  few : b'.slots.length ≤ max limit (b.held.length + 1)

theorem Exclusive.entered (hb : b.Exclusive) (h : b.pruned.withSlot id = (b', n)) :
    b.Entered id b' n := by
  have hexclusive : b'.Exclusive := by
    have hnew := hb.pruned.withSlot id
    rwa [h] at hnew
  have hlength := hb.length_pruned
  have hlimit : limit = 256 := rfl
  have hpruned : ∃ slots, b.pruned = { b with slots := slots } := by
    rw [GuardBook.pruned]
    split
    · exact ⟨_, rfl⟩
    · exact ⟨_, rfl⟩
  obtain ⟨slots, hslots⟩ := hpruned
  rw [hslots] at h hlength
  rw [GuardBook.withSlot] at h
  cases hfind : slots.find? (·.1 == id) with
  | some s =>
    simp only [hfind, Prod.mk.injEq] at h
    obtain ⟨rfl, rfl⟩ := h
    have hid : s.1 = id := by simpa using List.find?_some hfind
    refine ⟨⟨slots, b.made, rfl⟩, hexclusive, hid ▸ List.mem_of_find?_eq_some hfind, ?_⟩
    dsimp only at hlength ⊢
    omega
  | none =>
    simp only [hfind, Prod.mk.injEq] at h
    obtain ⟨rfl, rfl⟩ := h
    refine ⟨⟨_, _, rfl⟩, hexclusive, List.mem_append_right _ (List.mem_singleton_self _), ?_⟩
    rw [List.length_append, List.length_singleton]
    dsimp only at hlength ⊢
    omega

namespace Entered

theorem held (he : b.Entered id b' n) : b'.held = b.held := by
  obtain ⟨slots, made, rfl⟩ := he.same
  rfl

theorem accounted (he : b.Entered id b' n) (ha : b.Accounted) : b'.Accounted := by
  obtain ⟨slots, made, rfl⟩ := he.same
  exact ⟨ha.numbers, ha.called, ha.distinct, ha.known, ha.waits, ha.wakes⟩

theorem taking (he : b.Entered id b' n) (ht : b.Taking c rest) : b'.Taking c rest := by
  obtain ⟨slots, made, rfl⟩ := he.same
  exact ⟨ht.new, ht.called, ht.distinct, ht.taken⟩

theorem isShut_iff_held (he : b.Entered id b' n) :
    b'.isShut n = true ↔ ∃ g ∈ b.held, g.id = id :=
  he.held ▸ he.exclusive.isShut_iff_held he.slot

end Entered

theorem Orderly.proceed (hb : b.Orderly) (ht : b.Taking c rest) : (b.proceed c rest).1.Orderly := by
  fun_induction GuardBook.proceed b c rest with
  | case1 b => exact hb
  | case2 b id rest b' n h guard hshut =>
    have he := hb.exclusive.entered h
    exact ⟨he.exclusive.queue he.slot hshut, (he.accounted hb.accounted).queue (he.taking ht) rfl⟩
  | case3 b id rest b' n h guard hfree ih =>
    have he := hb.exclusive.entered h
    refine ih ⟨he.exclusive.grant he.slot (Bool.not_eq_true _ ▸ hfree), ?_⟩ ?_
    · exact (he.accounted hb.accounted).grant (he.taking ht) rfl
    · exact (he.taking ht).grant rfl rfl

/-- A call that has come to its end has one guard for each of its ids. -/
theorem Orderly.proceed_guards (hb : b.Orderly) (ht : b.Taking c rest) {guards : List Guard}
    (hsome : (b.proceed c rest).2 = some guards) :
    guards.map Guard.id = c.ids ∧ guards ⊆ (b.proceed c rest).1.held := by
  fun_induction GuardBook.proceed b c rest with
  | case1 b =>
    obtain rfl := Option.some.inj hsome
    refine ⟨?_, fun g hg => (mem_takenBy.mp hg).1⟩
    have htaken := ht.taken
    rwa [List.append_nil] at htaken
  | case2 => cases hsome
  | case3 b id rest b' n h guard hfree ih =>
    have he := hb.exclusive.entered h
    refine ih ⟨he.exclusive.grant he.slot (Bool.not_eq_true _ ▸ hfree), ?_⟩ ?_ hsome
    · exact (he.accounted hb.accounted).grant (he.taking ht) rfl
    · exact (he.taking ht).grant rfl rfl

/-- A call for ids that nobody holds gets them all at once. -/
theorem Exclusive.proceed_free (hb : b.Exclusive) (hdistinct : rest.Nodup)
    (hfree : ∀ id ∈ rest, ∀ g ∈ b.held, g.id ≠ id) :
    ∃ guards, (b.proceed c rest).2 = some (b.takenBy c.number ++ guards) ∧
      (b.proceed c rest).1.held = b.held ++ guards ∧ guards.map Guard.id = rest := by
  fun_induction GuardBook.proceed b c rest with
  | case1 b => exact ⟨[], by simp, by simp, rfl⟩
  | case2 b id rest b' n h guard hshut =>
    obtain ⟨g, hg, hid⟩ := (hb.entered h).isShut_iff_held.mp hshut
    exact absurd hid (hfree id List.mem_cons_self g hg)
  | case3 b id rest b' n h guard hfree' ih =>
    have he := hb.entered h
    obtain ⟨hid, hrest⟩ := List.nodup_cons.mp hdistinct
    have hlater : ∀ i ∈ rest, ∀ g ∈ b'.held ++ [guard], g.id ≠ i := by
      intro i hi g hg heq
      rcases List.mem_append.mp hg with hg | hg
      · exact hfree i (List.mem_cons_of_mem _ hi) g (he.held ▸ hg) heq
      · obtain rfl := List.mem_singleton.mp hg
        exact hid (heq.symm ▸ hi : guard.id ∈ rest)
    obtain ⟨guards, hsome, hheld, hids⟩ :=
      ih (he.exclusive.grant he.slot (Bool.not_eq_true _ ▸ hfree')) hrest hlater
    have htaken : b'.takenBy c.number = b.takenBy c.number := by rw [takenBy, takenBy, he.held]
    refine ⟨guard :: guards, ?_, ?_, by rw [List.map_cons, hids]⟩
    · rw [hsome, takenBy_append_of_eq rfl, htaken, List.append_assoc]
      rfl
    · rw [hheld, he.held, List.append_assoc]
      rfl

/-- A call for an id that somebody holds waits. -/
theorem Exclusive.proceed_held (hb : b.Exclusive) (hheld : ∃ id ∈ rest, ∃ g ∈ b.held, g.id = id) :
    (b.proceed c rest).2 = none ∧
      ∃ w ∈ (b.proceed c rest).1.waiting, w.call.number = c.number ∧ w.call.ids = c.ids := by
  fun_induction GuardBook.proceed b c rest with
  | case1 b =>
    obtain ⟨id, hid, -⟩ := hheld
    cases hid
  | case2 b id rest b' n h guard hshut =>
    exact ⟨rfl, _, List.mem_append_right _ (List.mem_singleton_self _), rfl, rfl⟩
  | case3 b id rest b' n h guard hfree ih =>
    have he := hb.entered h
    refine ih (he.exclusive.grant he.slot (Bool.not_eq_true _ ▸ hfree)) ?_
    obtain ⟨i, hi, g, hg, rfl⟩ := hheld
    rcases List.mem_cons.mp hi with rfl | hi
    · exact absurd (he.isShut_iff_held.mpr ⟨g, hg, rfl⟩) hfree
    · exact ⟨g.id, hi, g, List.mem_append_left _ (he.held ▸ hg), rfl⟩

/-- Idle slots are struck out whenever there are many. -/
theorem Exclusive.proceed_slots (hb : b.Exclusive) (hrest : rest ≠ []) :
    (b.proceed c rest).1.slots.length ≤ max limit ((b.proceed c rest).1.held.length + 1) := by
  fun_induction GuardBook.proceed b c rest with
  | case1 b => exact absurd rfl hrest
  | case2 b id rest b' n h guard hshut =>
    have he := hb.entered h
    exact he.held ▸ he.few
  | case3 b id rest b' n h guard hfree ih =>
    have he := hb.entered h
    cases rest with
    | nil =>
      have hfew := he.few
      rw [← he.held] at hfew
      simp only [GuardBook.proceed, List.length_append, List.length_singleton]
      omega
    | cons i rest =>
      exact ih (he.exclusive.grant he.slot (Bool.not_eq_true _ ▸ hfree)) (List.cons_ne_nil _ _)

/-! ### Runs -/

/-- What can be done with a book of guards. -/
inductive Move
  | lock (holder id : String)
  | lockMany (holder : String) (ids : List String)
  | resume (c : Call)
  | giveUp (call : Nat)
  | drop (g : Guard)

def move (b : GuardBook) : Move → GuardBook
  | .lock holder id => (b.ask holder [id]).1
  | .lockMany holder ids => (b.askMany holder ids).1
  | .resume c => (b.resume c).1
  | .giveUp call => b.giveUp call
  | .drop g => b.drop g

/-- The book after moves, the first of them on an empty one. -/
def after (moves : List Move) : GuardBook :=
  moves.foldl move empty

namespace Orderly

theorem ask_start (hb : b.Orderly) (holder : String) (hids : ids.Nodup) :
    ({ b with called := b.called + 1 }).Orderly ∧
      ({ b with called := b.called + 1 }).Taking ⟨b.called, holder, ids, ids⟩ ids := by
  obtain ⟨ha, ht⟩ := hb.accounted.start holder hids
  have he := hb.exclusive
  exact ⟨⟨⟨he.ids, he.locks, he.made, he.guarded, he.slotted, he.awaited⟩, ha⟩, ht⟩

theorem ask (hb : b.Orderly) (holder : String) (hids : ids.Nodup) :
    (b.ask holder ids).1.Orderly := by
  obtain ⟨hstart, ht⟩ := hb.ask_start holder hids
  exact hstart.proceed ht

theorem dropAll (hb : b.Orderly) (guards : List Guard) : (b.dropAll guards).Orderly := by
  induction guards generalizing b with
  | nil => exact hb
  | cons g guards ih => exact ih ⟨hb.exclusive.drop, hb.accounted.drop⟩

theorem part (hb : b.Orderly) {waiting : List Wait} {woken : List Call}
    (hwaiting : waiting.Sublist b.waiting) (hwoken : woken.Sublist b.woken) :
    ({ b with waiting := waiting, woken := woken }).Orderly := by
  have he := hb.exclusive
  refine ⟨⟨he.ids, he.locks, he.made, he.guarded, he.slotted, fun w hw => ?_⟩,
    hb.accounted.part hwaiting hwoken⟩
  exact he.awaited w (hwaiting.subset hw)

theorem move (hb : b.Orderly) (m : Move) : (b.move m).Orderly := by
  cases m with
  | lock holder id => exact hb.ask holder (List.nodup_singleton id)
  | lockMany holder ids => exact hb.ask holder nodup_inOrder
  | resume c =>
    rw [GuardBook.move, GuardBook.resume]
    split
    · next hc =>
      obtain ⟨-, ht⟩ := hb.accounted.resume hc
      exact (hb.part (.refl _) List.erase_sublist).proceed ht
    · exact hb
  | giveUp call =>
    rw [GuardBook.move, GuardBook.giveUp]
    split
    · exact (hb.part List.filter_sublist List.filter_sublist).dropAll _
    · exact hb
  | drop g => exact ⟨hb.exclusive.drop, hb.accounted.drop⟩

theorem after (moves : List Move) : (after moves).Orderly := by
  have hempty : empty.Orderly := by
    constructor
    · exact ⟨.nil, .nil, by simp [empty], .nil, by simp [empty], by simp [empty]⟩
    · exact ⟨.nil, by simp [empty, opened], by simp [empty, opened], by simp [empty],
        by simp [empty], by simp [empty]⟩
  suffices ∀ b : GuardBook, b.Orderly → (moves.foldl GuardBook.move b).Orderly from this _ hempty
  induction moves with
  | nil => exact fun _ hb => hb
  | cons m moves ih => exact fun b hb => ih _ (hb.move m)

end Orderly

/-! ### Slots that are struck out -/

/-- A book in which nobody waits, and in which each call so far was the first for its id. -/
def resting (slots : List (String × Nat)) (held : List Guard) (n : Nat) : GuardBook :=
  ⟨slots, held, [], [], n, n⟩

/-- Each of the ids is asked for and given back at once, after `n` calls with a lock for each. -/
def passing (holder : String) (n : Nat) : List String → List Move
  | [] => []
  | id :: ids => .lock holder id :: .drop ⟨holder, n, id, n⟩ :: passing holder (n + 1) ids

section Filling

variable {slots : List (String × Nat)} {held : List Guard}

/-- A new id that is asked for and given back leaves an idle slot. -/
theorem pass_one (holder : String) (hroom : slots.length < limit) (hnew : ∀ s ∈ slots, s.1 ≠ id)
    (hearlier : ∀ g ∈ held, g.lock < n) :
    ((resting slots held n).move (.lock holder id)).move (.drop ⟨holder, n, id, n⟩) =
      resting (slots ++ [(id, n)]) held (n + 1) := by
  have hfind : slots.find? (·.1 == id) = none := List.find?_eq_none.mpr (by simpa using hnew)
  have hfree : held.any (·.lock == n) = false := by
    simpa using fun g hg => Nat.ne_of_lt (hearlier g hg)
  have hnot : (⟨holder, n, id, n⟩ : Guard) ∉ held := fun hmem =>
    Nat.lt_irrefl _ (hearlier _ hmem)
  simp [resting, move, ask, proceed, pruned, hroom, withSlot, hfind, isShut, hfree, drop, isOpen,
    opened, List.erase_append_right _ hnot]

/-- One slot after the other, by induction on the ids. -/
theorem pass_all (holder : String) (hids : ids.Nodup) (hnew : ∀ s ∈ slots, s.1 ∉ ids)
    (hroom : slots.length + ids.length ≤ limit) (hearlier : ∀ g ∈ held, g.lock < n) :
    (passing holder n ids).foldl move (resting slots held n) =
      resting (slots ++ ids.zipIdx n) held (n + ids.length) := by
  induction ids generalizing slots n with
  | nil => simp [passing]
  | cons id ids ih =>
    obtain ⟨hid, hids⟩ := List.nodup_cons.mp hids
    rw [List.length_cons] at hroom
    have hfirst : ∀ s ∈ slots, s.1 ≠ id := fun s hs heq =>
      hnew s hs (heq ▸ List.mem_cons_self)
    have hlater : ∀ s ∈ slots ++ [(id, n)], s.1 ∉ ids := by
      intro s hs hmem
      rcases List.mem_append.mp hs with hs | hs
      · exact hnew s hs (List.mem_cons_of_mem _ hmem)
      · obtain rfl := List.mem_singleton.mp hs
        exact hid hmem
    have hroom' : (slots ++ [(id, n)]).length + ids.length ≤ limit := by
      rw [List.length_append, List.length_singleton]
      omega
    rw [passing, List.foldl_cons, List.foldl_cons, pass_one holder (by omega) hfirst hearlier,
      ih hids hlater hroom' fun g hg => Nat.lt_succ_of_lt (hearlier g hg)]
    simp [List.zipIdx_cons, Nat.add_assoc, Nat.add_comm 1]

/-- From a full book all idle slots are struck out when the next id comes. -/
theorem lock_full (holder : String) (hfull : limit ≤ slots.length)
    (hnew : ∀ s ∈ slots, s.1 ≠ id) (hearlier : ∀ g ∈ held, g.lock < n) :
    (resting slots held n).move (.lock holder id) =
      resting (slots.filter (fun s => held.any (·.lock == s.2)) ++ [(id, n)])
        (held ++ [⟨holder, n, id, n⟩]) (n + 1) := by
  have hmany : ¬ slots.length < limit := Nat.not_lt.mpr hfull
  have hfind : (slots.filter fun s => held.any (·.lock == s.2)).find? (·.1 == id) = none := by
    refine List.find?_eq_none.mpr fun s hs => ?_
    simpa using hnew s (List.mem_of_mem_filter hs)
  have hfree : held.any (·.lock == n) = false := by
    simpa using fun g hg => Nat.ne_of_lt (hearlier g hg)
  simp [resting, move, ask, proceed, pruned, hmany, withSlot, hfind, isShut, isUsed, hfree]

/-- While one id is held, others fill the book, and then comes a new one. -/
theorem after_full {kept new : String} (holder : String) (hids : (kept :: new :: ids).Nodup)
    (hlength : ids.length + 1 = limit) :
    let moves := .lock holder kept :: passing holder 1 ids
    (after moves).slots.length = limit ∧
      after (moves ++ [.lock holder new]) =
        resting [(kept, 0), (new, limit)]
          [⟨holder, 0, kept, 0⟩, ⟨holder, limit, new, limit⟩] (limit + 1) := by
  intro moves
  obtain ⟨hkept, hrest⟩ := List.nodup_cons.mp hids
  obtain ⟨hnew, hids⟩ := List.nodup_cons.mp hrest
  obtain ⟨hne, hkept⟩ := not_or.mp (List.mem_cons.not.mp hkept)
  let g : Guard := ⟨holder, 0, kept, 0⟩
  have hfilled : after moves = resting ((kept, 0) :: ids.zipIdx 1) [g] limit := by
    have hpassed : (passing holder 1 ids).foldl move (resting [(kept, 0)] [g] 1) =
        resting ((kept, 0) :: ids.zipIdx 1) [g] (1 + ids.length) :=
      pass_all holder hids (by simpa using hkept) (by simp [hlength, Nat.add_comm 1])
        (by simp [g])
    rw [Nat.add_comm 1, hlength] at hpassed
    exact hpassed
  have hslots : (((kept, 0) :: ids.zipIdx 1).filter fun s => [g].any (·.lock == s.2)) =
      [(kept, 0)] := by
    have hidle : (ids.zipIdx 1).filter (fun s => [g].any (·.lock == s.2)) = [] := by
      refine List.filter_eq_nil_iff.mpr fun s hs => ?_
      have hlater := List.le_snd_of_mem_zipIdx hs
      simpa [g] using Nat.ne_of_lt hlater
    rw [List.filter_cons_of_pos (by simp [g]), hidle]
  have hnow : ∀ s ∈ (kept, 0) :: ids.zipIdx 1, s.1 ≠ new := by
    intro s hs heq
    rcases List.mem_cons.mp hs with rfl | hs
    · exact hne heq
    · exact hnew (heq ▸ List.fst_mem_of_mem_zipIdx hs)
  constructor
  · rw [hfilled, ← hlength]
    simp [resting]
  · have hfull : limit ≤ ((kept, 0) :: ids.zipIdx 1).length := by simp [hlength]
    have hearlier : ∀ g' ∈ [g], g'.lock < limit := by simp [g, limit]
    have hlocked := lock_full holder hfull hnow hearlier
    rw [hslots, ← hfilled] at hlocked
    rw [after, List.foldl_append]
    exact hlocked

end Filling

/-! ### What holders can rely on -/

/-- Idle slots do not make a book larger than it has to be. -/
def Bounded (b : GuardBook) : Prop :=
  b.slots.length ≤ max limit (b.held.length + 1)

/-- One guard for each of the ids, however often it is among them. -/
def OneEach (guards : List Guard) (ids : List String) : Prop :=
  (guards.map Guard.id).Nodup ∧ ∀ id, id ∈ guards.map Guard.id ↔ id ∈ ids

namespace Orderly

theorem ask_free (hb : b.Orderly) (holder : String) (hids : ids.Nodup)
    (hfree : ∀ id ∈ ids, ¬ b.IsHeld id) :
    ∃ guards, (b.ask holder ids).2 = some guards ∧
      (b.ask holder ids).1.held = b.held ++ guards ∧ guards.map Guard.id = ids := by
  obtain ⟨hstart, ht⟩ := hb.ask_start holder hids
  have hfree' : ∀ id ∈ ids, ∀ g ∈ b.held, g.id ≠ id := fun id hid g hg heq =>
    hfree id hid ⟨g, hg, heq⟩
  obtain ⟨guards, hsome, hheld, hmap⟩ :=
    hstart.exclusive.proceed_free (c := ⟨b.called, holder, ids, ids⟩) hids hfree'
  have hnone : ({ b with called := b.called + 1 }).takenBy b.called = [] := by
    have htaken := ht.taken
    rwa [List.append_left_eq_self, List.map_eq_nil_iff] at htaken
  refine ⟨guards, ?_, hheld, hmap⟩
  rw [GuardBook.ask, hsome, hnone, List.nil_append]

theorem ask_held (hb : b.Orderly) (holder : String) (hids : ids.Nodup)
    (hheld : ∃ id ∈ ids, b.IsHeld id) :
    (b.ask holder ids).2 = none ∧
      ∃ w ∈ (b.ask holder ids).1.waiting, w.call.number = b.called ∧ w.call.ids = ids :=
  (hb.ask_start holder hids).1.exclusive.proceed_held hheld

theorem ask_bounded (hb : b.Orderly) (holder : String) (hids : ids.Nodup) (hsome : ids ≠ []) :
    (b.ask holder ids).1.Bounded :=
  (hb.ask_start holder hids).1.exclusive.proceed_slots hsome

/-- An id is granted at once just if nobody holds it. -/
theorem ask_one_iff (hb : b.Orderly) (holder id : String) :
    (b.ask holder [id]).2.isSome = true ↔ ¬ b.IsHeld id := by
  constructor
  · intro hgranted hheld
    have hnone := (hb.ask_held holder (List.nodup_singleton id)
      ⟨id, List.mem_singleton_self id, hheld⟩).1
    rw [hnone] at hgranted
    cases hgranted
  · intro hfree
    obtain ⟨guards, hsome, -⟩ := hb.ask_free holder (List.nodup_singleton id)
      fun i hi => List.mem_singleton.mp hi ▸ hfree
    rw [hsome]
    rfl

/-- The one guard that a granted call for an id gets. -/
theorem ask_one (hb : b.Orderly) (holder : String) (hfree : ¬ b.IsHeld id) :
    ∃ g, (b.ask holder [id]).2 = some [g] ∧ (b.ask holder [id]).1.held = b.held ++ [g] ∧
      g.id = id := by
  obtain ⟨guards, hsome, hheld, hids⟩ := hb.ask_free holder (List.nodup_singleton id)
    fun i hi => List.mem_singleton.mp hi ▸ hfree
  obtain ⟨g, rfl, hid⟩ := List.map_eq_singleton_iff.mp hids
  exact ⟨g, hsome, hheld, hid⟩

/-- A guard that is given back while nobody waits for its id can be had again at once. -/
theorem ask_dropped (hb : b.Orderly) (hg : g ∈ b.held) (hended : b.isOpen g.call = false)
    (hnone : ∀ w ∈ b.waiting, w.guard.id ≠ g.id) (holder : String) :
    ((b.drop g).ask holder [g.id]).2.isSome = true :=
  ((hb.move (.drop g)).ask_one_iff holder g.id).mpr (hb.exclusive.not_isHeld_drop hg hended hnone)

theorem askMany_free (hb : b.Orderly) (holder : String) (hfree : ∀ id ∈ ids, ¬ b.IsHeld id) :
    ∃ guards, (b.askMany holder ids).2 = some guards ∧
      (b.askMany holder ids).1.held = b.held ++ guards ∧ OneEach guards ids := by
  obtain ⟨guards, hsome, hheld, hids⟩ :=
    hb.ask_free holder nodup_inOrder fun id hid => hfree id (mem_inOrder.mp hid)
  exact ⟨guards, hsome, hheld, hids ▸ nodup_inOrder, fun id => hids ▸ mem_inOrder⟩

theorem askMany_held (hb : b.Orderly) (holder : String) (hheld : ∃ id ∈ ids, b.IsHeld id) :
    (b.askMany holder ids).2 = none ∧ ∃ w ∈ (b.askMany holder ids).1.waiting,
      w.call.number = b.called ∧ w.call.ids = inOrder ids := by
  obtain ⟨id, hid, hheld⟩ := hheld
  exact hb.ask_held holder nodup_inOrder ⟨id, mem_inOrder.mpr hid, hheld⟩

theorem askMany_bounded (hb : b.Orderly) (holder : String) (hsome : ids ≠ []) :
    (b.askMany holder ids).1.Bounded := by
  obtain ⟨id, hid⟩ := List.exists_mem_of_ne_nil ids hsome
  exact hb.ask_bounded holder nodup_inOrder (List.ne_nil_of_mem (mem_inOrder.mpr hid))

/-- A call that was woken is granted one guard for each of its ids, at once if nobody holds the
ids that it still lacks, or it waits again. -/
theorem resume_guards (hb : b.Orderly) (hc : c ∈ b.woken) :
    (∀ guards, (b.resume c).2 = some guards →
      OneEach guards c.ids ∧ guards ⊆ (b.resume c).1.held) ∧
    ((∀ id ∈ c.rest, ¬ b.IsHeld id) → (b.resume c).2.isSome = true) ∧
    (c.rest ≠ [] → (b.resume c).1.Bounded) := by
  obtain ⟨-, ht⟩ := hb.accounted.resume hc
  have hstart := hb.part (.refl b.waiting) (List.erase_sublist (a := c))
  rw [resume, if_pos hc]
  refine ⟨fun guards hsome => ?_, fun hfree => ?_, hstart.exclusive.proceed_slots⟩
  · obtain ⟨hids, hheld⟩ := hstart.proceed_guards ht hsome
    exact ⟨⟨hids ▸ ht.distinct, fun id => by rw [hids]⟩, hheld⟩
  · have hdistinct : c.rest.Nodup := (List.nodup_append.mp (ht.taken ▸ ht.distinct)).2.1
    obtain ⟨guards, hsome, -⟩ := hstart.exclusive.proceed_free (c := c) hdistinct
      fun id hid g hg heq => hfree id hid ⟨g, hg, heq⟩
    rw [hsome]
    rfl

end Orderly

/-- However often slots were struck out before: no two guards are for one id, an id is granted at
once if and only if nobody holds it, several ids are granted with one guard each, at once or after
waiting, and what is held keeps its slot, while the idle slots are few after each call. A guard that
is given back leaves its id to the call that has waited longest for it, and to whoever asks next if
none has; a call that is given up keeps no guard. -/
theorem guards_exclude (moves : List Move) :
    let b := after moves
    (b.held.map Guard.id).Nodup ∧
      (b.slots.map Prod.fst).Nodup ∧
      (∀ g ∈ b.held, (g.id, g.lock) ∈ b.slots) ∧
      (∀ holder id,
        ((b.ask holder [id]).2.isSome = true ↔ ¬ b.IsHeld id) ∧
        (¬ b.IsHeld id → ∃ g, (b.ask holder [id]).2 = some [g] ∧
          (b.ask holder [id]).1.held = b.held ++ [g] ∧ g.id = id) ∧
        (b.ask holder [id]).1.Bounded) ∧
      (∀ holder ids,
        ((∀ id ∈ ids, ¬ b.IsHeld id) → ∃ guards, (b.askMany holder ids).2 = some guards ∧
          (b.askMany holder ids).1.held = b.held ++ guards ∧ OneEach guards ids) ∧
        ((∃ id ∈ ids, b.IsHeld id) → (b.askMany holder ids).2 = none ∧
          ∃ w ∈ (b.askMany holder ids).1.waiting,
            w.call.number = b.called ∧ w.call.ids = inOrder ids) ∧
        (ids ≠ [] → (b.askMany holder ids).1.Bounded)) ∧
      (∀ c ∈ b.woken,
        (∀ guards, (b.resume c).2 = some guards →
          OneEach guards c.ids ∧ guards ⊆ (b.resume c).1.held) ∧
        ((∀ id ∈ c.rest, ¬ b.IsHeld id) → (b.resume c).2.isSome = true) ∧
        (c.rest ≠ [] → (b.resume c).1.Bounded)) ∧
      (∀ g ∈ b.held, b.isOpen g.call = false →
        b.GivesBack g (b.drop g) ∧
        ((∀ w ∈ b.waiting, w.guard.id ≠ g.id) →
          ∀ holder, ((b.drop g).ask holder [g.id]).2.isSome = true)) ∧
      ∀ n, b.isOpen n = true → b.GivesUp n (b.giveUp n) := by
  intro b
  have hb : b.Orderly := .after moves
  refine ⟨hb.exclusive.nodup_ids, hb.exclusive.ids, hb.exclusive.slotted, fun holder id => ?_,
    fun holder ids => ?_, fun c hc => hb.resume_guards hc, fun g hg hended => ?_,
    fun n hopen => hb.accounted.giveUp_givesUp hopen⟩
  · refine ⟨hb.ask_one_iff holder id, hb.ask_one holder, ?_⟩
    exact hb.ask_bounded holder (List.nodup_singleton id) (List.cons_ne_nil _ _)
  · exact ⟨hb.askMany_free holder, hb.askMany_held holder, hb.askMany_bounded holder⟩
  · exact ⟨hb.exclusive.drop_givesBack hg hended, hb.ask_dropped hg hended⟩

/-- Of 256 slots all but that of the one guard are struck out when the next id comes. The id of that
guard is refused after that, and the ids that were given back can be had. -/
theorem guards_exclude_after_pruning :
    let idle := (List.range 255).map fun n => String.ofList (List.replicate n 'u')
    let moves := .lock "ann" "kept" :: passing "ann" 1 idle
    let pruned := after (moves ++ [.lock "ann" "new"])
    (after moves).slots.length = 256 ∧ pruned.slots = [("kept", 0), ("new", 256)] ∧
      (pruned.ask "bob" ["kept"]).2.isSome = false ∧
      ∀ id ∈ idle, (pruned.ask "bob" [id]).2.isSome = true := by
  intro idle moves pruned
  have hapart : ∀ id ∈ idle, id ≠ "kept" ∧ id ≠ "new" := by
    intro id hid
    obtain ⟨n, -, rfl⟩ := List.mem_map.mp hid
    have hletters : ∀ c ∈ (String.ofList (List.replicate n 'u')).toList, c = 'u' := by
      rw [String.toList_ofList]
      exact fun c hc => List.eq_of_mem_replicate hc
    constructor
    · intro heq
      exact absurd (hletters 'k' (by rw [heq]; decide)) (by decide)
    · intro heq
      exact absurd (hletters 'n' (by rw [heq]; decide)) (by decide)
  have hids : ("kept" :: "new" :: idle).Nodup := by
    refine List.nodup_cons.mpr ⟨?_, List.nodup_cons.mpr ⟨fun hmem => (hapart _ hmem).2 rfl, ?_⟩⟩
    · exact List.mem_cons.not.mpr (not_or.mpr ⟨by decide, fun hmem => (hapart _ hmem).1 rfl⟩)
    · refine List.nodup_range.map fun n n' heq => ?_
      simpa using congrArg List.length (String.ofList_injective heq)
  have hlength : idle.length + 1 = limit := by simp [idle, limit]
  obtain ⟨hfull, hpruned⟩ := after_full "ann" hids hlength
  obtain ⟨-, -, -, hone, -⟩ := guards_exclude (moves ++ [.lock "ann" "new"])
  have hheld : ∀ id, pruned.IsHeld id ↔ id = "kept" ∨ id = "new" := by
    intro id
    rw [show pruned = _ from hpruned]
    simp [IsHeld, resting, eq_comm]
  refine ⟨hfull, congrArg slots hpruned, ?_, fun id hid => ?_⟩
  · rw [← Bool.not_eq_true, (hone "bob" "kept").1, not_not, hheld]
    exact .inl rfl
  · rw [(hone "bob" id).1, hheld]
    exact not_or.mpr (hapart id hid)

end LabelMail.GuardBook
