import LabelMail.Proofs.AskedCalls
import LabelMail.Proofs.Lookups

/-!
The calls that the screening makes for the addresses of a message when it lists or removes them.
Addresses are listed one after the other in the time that is left, until a call does not go through;
with it the listing breaks off. Each removal has the whole time, and a call that does not go through
does not keep the others from being made.
-/
namespace LabelMail.Screening

open Blacklist

variable {α τ : Type}

/-- What a series of calls comes to, where `late` is said of one that ran out of time. -/
def Ended.settle (late : Failure) : Ended α → Except Failure α
  | .answered a => .ok a
  | .failed e => .error e
  | .outOfTime => .error late
  | .withdrawn => .error .cancelled

def Ended.map {β : Type} (f : α → β) : Ended α → Ended β
  | .answered a => .answered (f a)
  | .failed e => .failed e
  | .outOfTime => .outOfTime
  | .withdrawn => .withdrawn

theorem Ended.settle_map {β : Type} (late : Failure) (f : α → β) (ended : Ended α) :
    (ended.map f).settle late = (ended.settle late).map f := by
  cases ended <;> rfl

/-- Where a call leads that does not go through. -/
def broken (ask : Oracle τ) (a : Asked τ) : Ended α :=
  match a.result ask with
  | some (.error e) => .failed e
  | _ => .outOfTime

/-- What is said of such a call. -/
def complaint (ask : Oracle τ) (late : Failure) (a : Asked τ) : Failure :=
  match a.result ask with
  | some (.error e) => e
  | _ => late

def entered (url : String) (new : Bool) : Effect :=
  if new then .added url else .alreadyPresent url

/-- The calls that are made to list these addresses in the time that is left, one after the other
while they go through. -/
def listings (ask : Oracle τ) : (left : Nat) → List String → τ → List (Asked τ)
  | _, [], _ => []
  | left, url :: rest, s =>
    let a : Asked τ := ⟨⟨.add, url⟩, left, s⟩
    match a.result ask with
    | some (.ok _) => a :: listings ask (left - a.wait ask) rest (a.after ask)
    | _ => [a]

variable {ask : Oracle τ} {listed : τ → List String} {a : Asked τ} {late : Failure}
variable {budget elapsed left : Nat} {url u : String} {urls rest : List String} {s s' : τ}

theorem settle_broken : (broken ask a : Ended α).settle late = .error (complaint ask late a) := by
  unfold broken complaint
  split <;> rfl

theorem listings_of_through (h : (Asked.mk ⟨.add, url⟩ left s).Through ask) :
    let a : Asked τ := ⟨⟨.add, url⟩, left, s⟩
    listings ask left (url :: rest) s =
      a :: listings ask (left - a.wait ask) rest (a.after ask) := by
  obtain ⟨b, hb⟩ := h
  simp only [listings, hb]

theorem listings_of_not_through (h : ¬ (Asked.mk ⟨.add, url⟩ left s).Through ask) :
    listings ask left (url :: rest) s = [⟨⟨.add, url⟩, left, s⟩] := by
  simp only [listings]
  split
  · next b hb => exact absurd ⟨b, hb⟩ h
  · rfl

/-- The calls of a listing are for its addresses, in states that have what calls keep. -/
theorem mem_listings {I : τ → Prop} (hask : ∀ c s, I s → I (ask c s).2) (hs : I s)
    (h : a ∈ listings ask left urls s) : a.call.url ∈ urls ∧ I a.state := by
  induction urls generalizing left s with
  | nil => cases h
  | cons url rest ih =>
    have hfirst (ha : a = ⟨⟨.add, url⟩, left, s⟩) : a.call.url ∈ url :: rest ∧ I a.state := by
      rw [ha]
      exact ⟨List.mem_cons_self, hs⟩
    by_cases hthrough : (Asked.mk ⟨.add, url⟩ left s).Through ask
    · rw [listings_of_through hthrough] at h
      rcases List.mem_cons.mp h with ha | hlater
      · exact hfirst ha
      · obtain ⟨hurl, hstate⟩ := ih (hask _ s hs) hlater
        exact ⟨List.mem_cons_of_mem url hurl, hstate⟩
    · rw [listings_of_not_through hthrough, List.mem_singleton] at h
      exact hfirst h

/-- One step of a listing: the call goes through and the others follow, or the listing ends with
it. -/
theorem listAll_cons (ask : Oracle τ) (url : String) (rest : List String) (s : τ)
    (htime : elapsed ≤ budget) :
    let a : Asked τ := ⟨⟨.add, url⟩, budget - elapsed, s⟩
    let later := listAll ask budget (elapsed + a.wait ask) rest (a.after ask)
    (∃ b, a.result ask = some (.ok b) ∧ elapsed + a.wait ask ≤ budget ∧
      listAll ask budget elapsed (url :: rest) s = (later.1.map (entered url b :: ·), later.2)) ∨
    (¬ a.Through ask ∧
      listAll ask budget elapsed (url :: rest) s = (broken ask a, a.after ask)) := by
  intro a later
  rcases hasked : ask ⟨.add, url⟩ s with ⟨reply, t⟩
  have hreply : a.reply ask = reply := congrArg Prod.fst hasked
  have hafter : a.after ask = t := congrArg Prod.snd hasked
  have hresult : a.result ask = reply.within (budget - elapsed) := by rw [Asked.result, hreply]
  simp only [listAll, hasked]
  cases hdelay : reply.delay with
  | none =>
    rw [Reply.within_never hdelay] at hresult
    refine .inr ⟨Asked.not_through_of_none hresult, ?_⟩
    simp only [broken, hresult, hafter]
  | some d =>
    have hwait : a.wait ask = d := by rw [Asked.wait, hreply, hdelay, Option.getD_some]
    rw [Reply.within_delay hdelay] at hresult
    dsimp only
    by_cases hlate : budget < elapsed + d
    · have hover : budget - elapsed < d := by omega
      rw [if_pos hover] at hresult
      refine .inr ⟨Asked.not_through_of_none hresult, ?_⟩
      simp only [broken, hresult, hafter, if_pos hlate]
    · have hin : ¬ budget - elapsed < d := by omega
      rw [if_neg hin] at hresult
      rw [if_neg hlate]
      cases hanswer : reply.answer with
      | error e =>
        rw [hanswer] at hresult
        refine .inr ⟨Asked.not_through_of_error hresult, ?_⟩
        simp only [broken, hresult, hafter]
      | ok b =>
        rw [hanswer] at hresult
        refine .inl ⟨b, hresult, by omega, ?_⟩
        simp only [later, hwait, hafter]
        rcases listAll ask budget (elapsed + d) rest t with ⟨ended, s'⟩
        cases ended <;> rfl

/-- What listing an address does that is or is not among these. -/
def listing (before : List String) (url : String) : Effect :=
  if url ∈ before then .alreadyPresent url else .added url

theorem entered_answered (before : List String) :
    entered url (answered ⟨.add, url⟩ before).1 = listing before url := by
  by_cases h : url ∈ before <;> simp [entered, answered, listing, h]

/-- All addresses are listed, and what is said of each is true of the addresses before. -/
structure AllListed (ask : Oracle τ) (listed : τ → List String) (urls : List String)
    (calls : List (Asked τ)) (s s' : τ) (effects : List Effect) : Prop where
  made : calls.map Asked.call = urls.map (Call.mk .add)
  through : ∀ a ∈ calls, a.Through ask
  said : effects = urls.map (listing (listed s))
  grown : ∀ u, u ∈ listed s' ↔ u ∈ listed s ∨ u ∈ urls

/-- The first `k` addresses are listed, and the call for the next one did not go through. -/
structure BrokenOff (ask : Oracle τ) (listed : τ → List String) (late : Failure)
    (urls : List String) (calls : List (Asked τ)) (s s' : τ) (e : Failure) (k : Nat) : Prop where
  bound : k < urls.length
  made : calls.map Asked.call = (urls.take (k + 1)).map (Call.mk .add)
  through : ∀ a ∈ calls.take k, a.Through ask
  last : ∃ a, calls[k]? = some a ∧ ¬ a.Through ask ∧ e = complaint ask late a
  grown : ∀ u, u ∈ listed s' ↔ u ∈ listed s ∨ u ∈ urls.take k

theorem AllListed.cons {later : List (Asked τ)} {effects : List Effect} {b : Bool}
    (ha : a.call = ⟨.add, url⟩) (hb : a.result ask = some (.ok b)) (hheeded : a.Heeded ask listed)
    (hurl : url ∉ rest) (h : AllListed ask listed rest later (a.after ask) s' effects) :
    AllListed ask listed (url :: rest) (a :: later) a.state s' (entered url b :: effects) := by
  have hafter : ∀ u, u ∈ listed (a.after ask) ↔ u ∈ listed a.state ∨ u = url := by
    intro u
    rw [hheeded.done ⟨b, hb⟩ u, ha, mem_answered_add]
  refine ⟨?_, List.forall_mem_cons.mpr ⟨⟨b, hb⟩, h.through⟩, ?_, fun u => ?_⟩
  · rw [List.map_cons, List.map_cons, ha, h.made]
  · -- The other addresses were listed before this call if they are after it.
    have hrest : rest.map (listing (listed (a.after ask))) =
        rest.map (listing (listed a.state)) := by
      refine List.map_congr_left fun v hv => ?_
      have hv : v ≠ url := fun heq => hurl (heq ▸ hv)
      simp [listing, hafter, hv]
    rw [hheeded.answer b hb, ha, entered_answered, h.said, hrest, List.map_cons]
  · rw [h.grown, hafter, or_assoc, List.mem_cons]

theorem BrokenOff.cons {later : List (Asked τ)} {e : Failure} {k : Nat}
    (ha : a.call = ⟨.add, url⟩) (hthrough : a.Through ask) (hheeded : a.Heeded ask listed)
    (h : BrokenOff ask listed late rest later (a.after ask) s' e k) :
    BrokenOff ask listed late (url :: rest) (a :: later) a.state s' e (k + 1) := by
  refine ⟨Nat.succ_lt_succ h.bound, ?_, ?_, h.last, fun u => ?_⟩
  · rw [List.take_succ_cons, List.map_cons, List.map_cons, ha, h.made]
  · exact List.forall_mem_cons.mpr ⟨hthrough, h.through⟩
  · rw [h.grown, hheeded.done hthrough, ha, mem_answered_add, or_assoc, List.take_succ_cons,
      List.mem_cons]

/-- A listing that does not go on behind a call. -/
theorem brokenOff_of_not_through (ha : a.call = ⟨.add, url⟩) (hnot : ¬ a.Through ask)
    (hheeded : a.Heeded ask listed) :
    BrokenOff ask listed late (url :: rest) [a] a.state (a.after ask) (complaint ask late a) 0 := by
  refine ⟨Nat.succ_pos _, ?_, List.forall_mem_nil _, ⟨a, rfl, hnot, rfl⟩, fun u => ?_⟩
  · rw [List.map_singleton, ha]
    rfl
  · rw [hheeded.spared hnot, List.take_zero]
    simp

/-- A listing gets to its end or breaks off, by induction along the addresses. -/
theorem listAll_course (late : Failure) (hnodup : urls.Nodup) (htime : elapsed ≤ budget)
    (hheeded : ∀ a ∈ listings ask (budget - elapsed) urls s, a.Heeded ask listed) :
    let r := listAll ask budget elapsed urls s
    let calls := listings ask (budget - elapsed) urls s
    (∃ effects, r.1.settle late = .ok effects ∧
      AllListed ask listed urls calls s r.2 effects) ∨
    ∃ e k, r.1.settle late = .error e ∧ BrokenOff ask listed late urls calls s r.2 e k := by
  induction urls generalizing elapsed s with
  | nil => exact .inl ⟨[], rfl, rfl, List.forall_mem_nil _, rfl, fun u => by simp [listAll]⟩
  | cons url rest ih =>
    intro r calls
    replace hheeded : ∀ a ∈ calls, a.Heeded ask listed := hheeded
    obtain ⟨hurl, hrest⟩ := List.nodup_cons.mp hnodup
    let a : Asked τ := ⟨⟨.add, url⟩, budget - elapsed, s⟩
    rcases listAll_cons ask url rest s htime with ⟨b, hb, hin, hr⟩ | ⟨hnot, hr⟩
    · have hcalls : calls =
          a :: listings ask (budget - (elapsed + a.wait ask)) rest (a.after ask) := by
        rw [← Nat.sub_sub]
        exact listings_of_through ⟨b, hb⟩
      rw [hcalls, List.forall_mem_cons] at hheeded
      have hsettle := Ended.settle_map late (entered url b :: ·)
        (listAll ask budget (elapsed + a.wait ask) rest (a.after ask)).1
      rw [hcalls, show r = _ from hr, hsettle]
      rcases ih hrest hin hheeded.2 with ⟨effects, heffects, h⟩ | ⟨e, k, he, h⟩
      · rw [heffects]
        exact .inl ⟨_, rfl, h.cons rfl hb hheeded.1 hurl⟩
      · rw [he]
        exact .inr ⟨e, k + 1, rfl, h.cons rfl ⟨b, hb⟩ hheeded.1⟩
    · have hcalls : calls = [a] := listings_of_not_through hnot
      rw [hcalls, List.forall_mem_singleton] at hheeded
      rw [hcalls, show r = _ from hr, settle_broken]
      exact .inr ⟨_, 0, rfl, brokenOff_of_not_through rfl hnot hheeded⟩

/-- What becomes of an address when it is to be removed from these. -/
def removal (ask : Oracle τ) (before : List String) (a : Asked τ) : Effect :=
  match a.result ask with
  | some (.ok _) => if a.call.url ∈ before then .removed a.call.url else .notFound a.call.url
  | some (.error e) => .failed a.call.url e.message
  | none => .failed a.call.url "timed out"

/-- The calls that are made to remove these addresses, each with the whole time. -/
def removals (ask : Oracle τ) (budget : Nat) : List String → τ → List (Asked τ)
  | [], _ => []
  | url :: rest, s =>
    let a : Asked τ := ⟨⟨.remove, url⟩, budget, s⟩
    a :: removals ask budget rest (a.after ask)

/-- The calls of a removal are for its addresses, in states that have what calls keep. -/
theorem mem_removals {I : τ → Prop} (hask : ∀ c s, I s → I (ask c s).2) (hs : I s)
    (h : a ∈ removals ask budget urls s) : a.call.url ∈ urls ∧ I a.state := by
  induction urls generalizing s with
  | nil => cases h
  | cons url rest ih =>
    rcases List.mem_cons.mp h with rfl | hlater
    · exact ⟨List.mem_cons_self, hs⟩
    · obtain ⟨hurl, hstate⟩ := ih (hask _ s hs) hlater
      exact ⟨List.mem_cons_of_mem url hurl, hstate⟩

/-- The address that it happened to. -/
def Effect.address : Effect → String
  | .added url | .alreadyPresent url | .removed url | .notFound url | .failed url _ => url

def Effect.isFailed : Effect → Bool
  | .failed _ _ => true
  | _ => false

@[simp] theorem removal_address {before : List String} :
    (removal ask before a).address = a.call.url := by
  unfold removal
  split
  · split <;> rfl
  · rfl
  · rfl

theorem removal_isFailed {before : List String} :
    (removal ask before a).isFailed ↔ ¬ a.Through ask := by
  unfold removal
  split
  · next b hb =>
    have hthrough : a.Through ask := ⟨b, hb⟩
    split <;> simp [Effect.isFailed, hthrough]
  · next e he => simp [Effect.isFailed, Asked.not_through_of_error he]
  · next h => simp [Effect.isFailed, Asked.not_through_of_none h]

theorem unlist_eq (hheeded : (Asked.mk ⟨.remove, url⟩ budget s).Heeded ask listed) :
    let a : Asked τ := ⟨⟨.remove, url⟩, budget, s⟩
    unlist ask budget url s = (removal ask (listed s) a, a.after ask) := by
  intro a
  rcases hasked : ask ⟨.remove, url⟩ s with ⟨reply, t⟩
  have hafter : a.after ask = t := congrArg Prod.snd hasked
  have hresult : a.result ask = reply.within budget := by
    rw [Asked.result, Asked.reply, hasked]
  have hanswer : ∀ b, reply.within budget = some (.ok b) →
      b = (answered ⟨.remove, url⟩ (listed s)).1 := by
    rw [← hresult]
    exact hheeded.answer
  have hcall : a.call = ⟨.remove, url⟩ := rfl
  simp only [unlist, hasked, removal, hresult, hafter, hcall]
  cases hdelay : reply.delay with
  | none => simp only [Reply.within_never hdelay]
  | some d =>
    rw [Reply.within_delay hdelay] at hanswer ⊢
    dsimp only
    by_cases hlate : budget < d
    · simp only [if_pos hlate]
    · rw [if_neg hlate] at hanswer
      simp only [if_neg hlate]
      cases hsaid : reply.answer with
      | error e => rfl
      | ok b =>
        obtain rfl := hanswer b (by rw [hsaid])
        by_cases hurl : url ∈ listed s <;> simp [answered, hurl]

/-- Every address has its call, and those are gone whose calls went through. -/
structure AllRemoved (ask : Oracle τ) (listed : τ → List String) (urls : List String)
    (calls : List (Asked τ)) (s s' : τ) (effects : List Effect) : Prop where
  made : calls.map Asked.call = urls.map (Call.mk .remove)
  said : effects = calls.map (removal ask (listed s))
  left : ∀ u, u ∈ listed s' ↔ u ∈ listed s ∧ ∀ e ∈ effects, e.address = u → e.isFailed

theorem AllRemoved.cons {later : List (Asked τ)} {effects : List Effect}
    (ha : a.call = ⟨.remove, url⟩) (hheeded : a.Heeded ask listed) (hurl : url ∉ rest)
    (h : AllRemoved ask listed rest later (a.after ask) s' effects) :
    AllRemoved ask listed (url :: rest) (a :: later) a.state s'
      (removal ask (listed a.state) a :: effects) := by
  have hafter : ∀ u, u ∈ listed (a.after ask) ↔
      u ∈ listed a.state ∧ (url = u → (removal ask (listed a.state) a).isFailed) := by
    intro u
    rw [removal_isFailed]
    by_cases hthrough : a.Through ask
    · rw [hheeded.done hthrough, ha, mem_answered_remove]
      simp [hthrough, eq_comm]
    · rw [hheeded.spared hthrough]
      simp [hthrough]
  refine ⟨?_, ?_, fun u => ?_⟩
  · rw [List.map_cons, List.map_cons, ha, h.made]
  · -- The other addresses were listed before this call if they are after it.
    have hrest : later.map (removal ask (listed (a.after ask))) =
        later.map (removal ask (listed a.state)) := by
      refine List.map_congr_left fun c hc => ?_
      have hmade : c.call ∈ rest.map (Call.mk .remove) := h.made ▸ List.mem_map_of_mem hc
      obtain ⟨v, hv, hcall⟩ := List.mem_map.mp hmade
      have hother : url ≠ v := fun heq => hurl (heq ▸ hv)
      simp [removal, hafter, ← hcall, hother]
    rw [h.said, hrest, List.map_cons]
  · rw [h.left, hafter, and_assoc, List.forall_mem_cons, removal_address, ha]

/-- Something is said of each address, in order. -/
theorem AllRemoved.addresses {calls : List (Asked τ)} {effects : List Effect}
    (h : AllRemoved ask listed urls calls s s' effects) : effects.map Effect.address = urls :=
  calc effects.map Effect.address
      = (calls.map Asked.call).map Call.url := by
        rw [h.said, List.map_map, List.map_map]
        exact List.map_congr_left fun _ _ => removal_address
    _ = urls := by
        rw [h.made, List.map_map]
        exact List.map_id urls

theorem unlistAll_course (hnodup : urls.Nodup)
    (hheeded : ∀ a ∈ removals ask budget urls s, a.Heeded ask listed) :
    let r := unlistAll ask budget urls s
    AllRemoved ask listed urls (removals ask budget urls s) s r.2 r.1 := by
  induction urls generalizing s with
  | nil => exact ⟨rfl, rfl, fun u => by simp [unlistAll]⟩
  | cons url rest ih =>
    obtain ⟨hurl, hrest⟩ := List.nodup_cons.mp hnodup
    obtain ⟨ha, hlater⟩ := List.forall_mem_cons.mp hheeded
    simp only [unlistAll, unlist_eq ha]
    exact (ih hrest hlater).cons rfl ha hurl

/-- The log of these calls. -/
def written (ask : Oracle τ) (calls : List (Asked τ)) : Log :=
  calls.map fun a => (a.call, a.reply ask)

/-- These are the calls that a listing makes. Writing them down changes nothing else. -/
theorem listAll_recording {log : Log} (htime : elapsed ≤ budget) :
    let r := listAll ask budget elapsed urls s
    listAll (recording ask) budget elapsed urls (s, log) =
      (r.1, r.2, log ++ written ask (listings ask (budget - elapsed) urls s)) := by
  induction urls generalizing elapsed s log with
  | nil => simp [listAll, listings, written]
  | cons url rest ih =>
    -- The reply is the same with and without the log, so that the two listings go the same way.
    let a : Asked τ := ⟨⟨.add, url⟩, budget - elapsed, s⟩
    let a' : Asked (τ × Log) := ⟨⟨.add, url⟩, budget - elapsed, (s, log)⟩
    have hwait : a'.wait (recording ask) = a.wait ask := rfl
    have hafter : a'.after (recording ask) = (a.after ask, log ++ written ask [a]) := rfl
    have hlogged := listAll_cons (recording ask) url rest (s, log) htime
    rcases listAll_cons ask url rest s htime with ⟨b, hb, hin, hr⟩ | ⟨hnot, hr⟩
    · rcases hlogged with ⟨b', hb', -, hr'⟩ | ⟨hnot', -⟩
      · obtain rfl : b' = b := Except.ok.inj (Option.some.inj (hb'.symm.trans hb))
        rw [hr, hr', hwait, hafter, ih hin, listings_of_through ⟨b', hb⟩, ← Nat.sub_sub]
        simp [written, a]
      · exact absurd ⟨b, hb⟩ hnot'
    · rcases hlogged with ⟨b', hb', -, -⟩ | ⟨hnot', hr'⟩
      · exact absurd ⟨b', hb'⟩ hnot
      · rw [hr, hr', hafter, listings_of_not_through hnot]
        rfl

/-- What is said of a removal depends on the reply alone. -/
theorem unlist_of_reply {τ' : Type} {ask' : Oracle τ'} {r : τ'}
    (h : (ask' ⟨.remove, url⟩ r).1 = (ask ⟨.remove, url⟩ s).1) :
    unlist ask' budget url r = ((unlist ask budget url s).1, (ask' ⟨.remove, url⟩ r).2) := by
  simp only [unlist, h]
  cases (ask ⟨.remove, url⟩ s).1.delay with
  | none => rfl
  | some d =>
    dsimp only
    split
    · rfl
    · cases (ask ⟨.remove, url⟩ s).1.answer with
      | error e => rfl
      | ok b => cases b <;> rfl

theorem unlistAll_recording {log : Log} :
    let r := unlistAll ask budget urls s
    unlistAll (recording ask) budget urls (s, log) =
      (r.1, r.2, log ++ written ask (removals ask budget urls s)) := by
  induction urls generalizing s log with
  | nil => simp [unlistAll, removals, written]
  | cons url rest ih =>
    let a : Asked τ := ⟨⟨.remove, url⟩, budget, s⟩
    have hlogged : unlist (recording ask) budget url (s, log) =
        ((unlist ask budget url s).1, a.after ask, log ++ written ask [a]) := unlist_of_reply rfl
    have hafter : (unlist ask budget url s).2 = a.after ask :=
      congrArg Prod.snd (unlist_of_reply rfl)
    simp only [unlistAll, hlogged, ih, hafter]
    simp [removals, written, a]

end LabelMail.Screening
