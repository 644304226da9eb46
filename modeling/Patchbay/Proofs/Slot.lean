import Patchbay.Proofs.Action
import Patchbay.Slot

/-!
# The life of resources in a slot

A resource that a slot has made is dropped once, by the slot, and before the next one is made. `Slot.History`
are the records of which this is true, together with what is alive at their end, and a slot in use has such a
record: it is kept by one request (`Slot.Request.history_perform`) and so by any number of them. The record
is made of single events, so what is said of all its beginnings is said of every moment.

**`Slot.performAll_lifeCycle`** puts this into numbers, and says what a request for a resource does next.
-/

namespace Patchbay.Slot

open Patchbay.Action

variable {κ ρ ε : Type} {key : κ} {create : κ → Except ε ρ} {u : Usage κ ρ ε}

/-- A slot is bound to an equal key, or what it holds, if anything, is stale. -/
theorem held_or_stale [BEq κ] (s : Slot κ ρ) (key : κ) :
    (∃ k r, s.entry = some (k, r) ∧ (k == key) = true) ∨
      ∀ k r, s.entry = some (k, r) → (k == key) = false := by
  by_cases h : ∃ k r, s.entry = some (k, r) ∧ (k == key) = true
  · exact Or.inl h
  · exact Or.inr fun k r hentry => Bool.eq_false_iff.mpr fun hk => h ⟨k, r, hentry, hk⟩

/-! ## What the steps do -/

namespace UseM

theorem discard_apply (entry : Option (κ × ρ)) (u : Usage κ ρ ε) : discard entry u =
    (.ok (), { u with events := u.events ++ (entry.map fun e => .dropped e.2).toList }) := by
  cases entry with
  | none => simp [discard]
  | some e => rfl

theorem take_apply (u : Usage κ ρ ε) : take u = (.ok u.slot.entry, { u with slot := empty }) := rfl

theorem make_apply (key : κ) (create : κ → Except ε ρ) (u : Usage κ ρ ε) : make key create u =
    (create key, { u with events := u.events ++ [.tried key (create key)] }) := by
  rw [make, record, modify_bind_apply]
  cases create key <;> rfl

/-- An entry that is put into an empty slot takes the place of nothing. -/
theorem insert_apply (entry : κ × ρ) (h : u.slot = empty) :
    insert entry u = (.ok (), { u with slot := ⟨some entry⟩ }) := by
  rw [insert, bind_ok (take_apply u), h, bind_ok (discard_apply _ _)]
  simp [empty]
  rfl

/-- A stale entry is dropped, and then a resource is asked for. -/
theorem renew_apply (stale : Option (κ × ρ)) (key : κ) (create : κ → Except ε ρ) (u : Usage κ ρ ε) :
    renew stale key create u = ((create key).map (key, ·),
      { u with events := u.events ++ (stale.map fun e => .dropped e.2).toList ++ [.tried key (create key)] }) := by
  rw [renew, bind_ok (discard_apply stale u)]
  cases h : create key with
  | error e => rw [bind_error (by rw [make_apply, h])]; rfl
  | ok r => rw [bind_ok (by rw [make_apply, h])]; rfl

variable [BEq κ]

/-- A slot that is bound to an equal key keeps its resource. -/
theorem getOrCreate_of_held {k : κ} {r : ρ} (h : u.slot.entry = some (k, r)) (hk : (k == key) = true) :
    getOrCreate key create u = (.ok r, u) := by
  have hput : insert (k, r) { u with slot := empty } = (.ok (), u) := by
    rw [insert_apply (k, r) rfl, ← h]
  rw [getOrCreate, bind_ok (take_apply u), h]
  simp only [hk, if_true]
  rw [bind_ok (pure_apply _ _), bind_ok hput]
  rfl

/-- Any other slot drops what it holds and asks for a resource, which it is bound to if there is one. -/
theorem getOrCreate_of_stale (h : ∀ k r, u.slot.entry = some (k, r) → (k == key) = false) :
    getOrCreate key create u = (create key,
      { slot := ⟨(create key).toOption.map (key, ·)⟩
        events := u.events ++ u.slot.get?.toList.map .dropped ++ [.tried key (create key)] }) := by
  have hevents : (u.slot.entry.map fun e => Event.dropped e.2).toList =
      (u.slot.get?.toList.map .dropped : List (Event κ ρ ε)) := by
    rw [get?]
    cases u.slot.entry <;> rfl
  have hrenew : getOrCreate key create u =
      (renew u.slot.entry key create >>= fun entry => do insert entry; return entry.2)
        { u with slot := empty } := by
    rw [getOrCreate, bind_ok (take_apply u)]
    cases hentry : u.slot.entry with
    | none => rfl
    | some held => simp only [h held.1 held.2 hentry, Bool.false_eq_true, if_false]
  rw [hrenew, ← hevents]
  cases hmade : create key with
  | error e =>
    rw [bind_error (by rw [renew_apply, hmade]; rfl)]
    rfl
  | ok r =>
    rw [bind_ok (by rw [renew_apply, hmade]; rfl), bind_ok (insert_apply (key, r) rfl)]
    rfl

omit [BEq κ] in
theorem release_apply (u : Usage κ ρ ε) : release u =
    (.ok (), { slot := empty, events := u.events ++ u.slot.get?.toList.map .dropped }) := by
  rw [release, bind_ok (take_apply u), discard_apply, get?]
  cases u.slot.entry <;> rfl

end UseM

/-! ## Records -/

/-- A record of what becomes of resources, and what is alive after it, with the key it was made for: nothing is
made while something is alive, and nothing is dropped but that. -/
inductive History : List (Event κ ρ ε) → Option (κ × ρ) → Prop
  | nil : History [] none
  | made {events : List (Event κ ρ ε)} {key : κ} {r : ρ} (before : History events none) :
      History (events ++ [.tried key (.ok r)]) (some (key, r))
  | failed {events : List (Event κ ρ ε)} {key : κ} {e : ε} (before : History events none) :
      History (events ++ [.tried key (.error e)]) none
  | dropped {events : List (Event κ ρ ε)} {key : κ} {r : ρ} (before : History events (some (key, r))) :
      History (events ++ [.dropped r]) none

namespace History

variable {events : List (Event κ ρ ε)} {alive : Option (κ × ρ)}

/-- What has been made is, in the same order, what has been dropped and then what is alive. -/
theorem filterMap_made? (h : History events alive) : events.filterMap Event.made? =
    events.filterMap Event.dropped? ++ (alive.map Prod.snd).toList := by
  induction h with
  | nil => rfl
  | made _ ih | failed _ ih | dropped _ ih =>
    simpa [List.filterMap_cons, Event.made?, Event.dropped?] using ih

/-- The beginnings of a record are the record and those of what came before the last event. -/
theorem exists_of_isPrefix_concat {event : Event κ ρ ε} (h : History (events ++ [event]) alive)
    (hbefore : ∀ t, t <+: events → ∃ a : Option (κ × ρ), History t a) {t : List (Event κ ρ ε)}
    (ht : t <+: events ++ [event]) : ∃ a : Option (κ × ρ), History t a := by
  rcases List.prefix_concat_iff.mp ht with rfl | ht
  · exact ⟨alive, h⟩
  · exact hbefore t ht

/-- The beginnings of a record are records. -/
theorem exists_of_isPrefix (h : History events alive) (t : List (Event κ ρ ε)) (ht : t <+: events) :
    ∃ a, History t a := by
  induction h generalizing t with
  | nil => exact ⟨none, List.prefix_nil.mp ht ▸ nil⟩
  | made before ih => exact exists_of_isPrefix_concat (made before) ih ht
  | failed before ih => exact exists_of_isPrefix_concat (failed before) ih ht
  | dropped before ih => exact exists_of_isPrefix_concat (dropped before) ih ht

/-- Nothing is alive when a resource is asked for. -/
theorem of_tried {answer : Except ε ρ} (h : History (events ++ [.tried key answer]) alive) :
    History events none := by
  generalize hall : events ++ [Event.tried key answer] = all at h
  cases h with
  | nil => simp at hall
  | made before | failed before =>
    obtain ⟨rfl, -⟩ := List.append_inj' hall rfl
    exact before
  | dropped before => simp at hall

/-- What is alive was made, for the key that it is known by. -/
theorem mem_of_alive {key : κ} {r : ρ} (h : History events (some (key, r))) :
    .tried key (.ok r) ∈ events := by
  cases h with
  | made before => exact List.mem_concat_self

/-- What is alive can be dropped. -/
theorem drop (h : History events alive) :
    History (events ++ (alive.map Prod.snd).toList.map .dropped) none := by
  cases alive with
  | none => simpa using h
  | some e => exact dropped h

/-- A resource is asked for when nothing is alive. -/
theorem tried (h : History events none) (key : κ) (answer : Except ε ρ) :
    History (events ++ [.tried key answer]) (answer.toOption.map (key, ·)) := by
  cases answer with
  | error e => exact failed h
  | ok r => exact made h

end History

/-! ## Sequences of requests -/

/-- What may be asked of a slot. -/
inductive Request (κ ρ ε : Type) where
  | getOrCreate (key : κ) (create : κ → Except ε ρ)
  | release

variable [BEq κ]

/-- Performs a request, whatever its answer is. -/
def Request.perform (u : Usage κ ρ ε) : Request κ ρ ε → Usage κ ρ ε
  | getOrCreate key create => (UseM.getOrCreate key create u).2
  | release => (UseM.release u).2

/-- Performs requests of a slot that is empty at first. -/
def performAll (requests : List (Request κ ρ ε)) : Usage κ ρ ε :=
  requests.foldl Request.perform ⟨empty, []⟩

/-- A request keeps the record of what is held. -/
theorem Request.history_perform (request : Request κ ρ ε) (h : History u.events u.slot.entry) :
    History (request.perform u).events (request.perform u).slot.entry := by
  cases request with
  | release =>
    rw [perform, UseM.release_apply]
    exact h.drop
  | getOrCreate key create =>
    rcases u.slot.held_or_stale key with ⟨k, r, hentry, hk⟩ | hstale
    · rw [perform, UseM.getOrCreate_of_held hentry hk]
      exact h
    · rw [perform, UseM.getOrCreate_of_stale hstale]
      exact h.drop.tried key (create key)

theorem history_performAll (requests : List (Request κ ρ ε)) :
    History (performAll requests).events (performAll requests).slot.entry := by
  rw [performAll]
  generalize hstart : (⟨empty, []⟩ : Usage κ ρ ε) = start
  have h : History start.events start.slot.entry := hstart ▸ History.nil
  clear hstart
  induction requests generalizing start with
  | nil => exact h
  | cons request requests ih => exact ih _ (request.history_perform h)

/-- What a request for a resource comes to: the slot was in state `u` before and is in state `v` after it. -/
structure Answers (key : κ) (create : κ → Except ε ρ) (u : Usage κ ρ ε) (answer : Except ε ρ)
    (v : Usage κ ρ ε) : Prop where
  /-- A slot that is bound to an equal key gives what it holds, and nothing else happens. -/
  held : ∀ k r, u.slot.entry = some (k, r) → (k == key) = true → answer = .ok r ∧ v = u
  /-- Any other slot drops what it holds, and then asks once for a resource, which is the answer. -/
  stale : (∀ k r, u.slot.entry = some (k, r) → (k == key) = false) → answer = create key ∧
    v.events = u.events ++ u.slot.get?.toList.map .dropped ++ [.tried key (create key)]
  /-- What is given was made for an equal key, to which the slot is bound. -/
  bound : ∀ r, answer = .ok r → ∃ k, (k = key ∨ (k == key) = true) ∧ v.slot.entry = some (k, r) ∧
    .tried k (.ok r) ∈ v.events
  failed : ∀ e, answer = .error e → v.slot = empty

theorem answers_getOrCreate (key : κ) (create : κ → Except ε ρ) (h : History u.events u.slot.entry) :
    Answers key create u (UseM.getOrCreate key create u).1 (UseM.getOrCreate key create u).2 := by
  rcases u.slot.held_or_stale key with ⟨k, r, hentry, hk⟩ | hstale
  · rw [UseM.getOrCreate_of_held hentry hk]
    rw [hentry] at h
    constructor
    case held =>
      intro k' r' hentry' _
      obtain ⟨rfl, rfl⟩ := Prod.mk.inj (Option.some.inj (hentry.symm.trans hentry'))
      exact ⟨rfl, rfl⟩
    case stale => exact fun hstale => absurd hk (Bool.eq_false_iff.mp (hstale k r hentry))
    case bound =>
      rintro _ ⟨⟩
      exact ⟨k, Or.inr hk, hentry, h.mem_of_alive⟩
    case failed => exact fun e he => nomatch he
  · rw [UseM.getOrCreate_of_stale hstale]
    constructor
    case held => exact fun k r hentry hk => absurd hk (Bool.eq_false_iff.mp (hstale k r hentry))
    case stale => exact fun _ => ⟨rfl, rfl⟩
    case bound =>
      intro r (hmade : create key = .ok r)
      refine ⟨key, Or.inl rfl, ?_, ?_⟩
      · simp [hmade, Except.toOption]
      · simp [hmade]
    case failed =>
      intro e (hfailed : create key = .error e)
      simp [hfailed, Except.toOption, empty]

/-- **The life of resources in a slot.** Requests are made of a slot, whose resources may fail to be made, and
in the end it is dropped. At every moment at most one of the resources made has not been dropped, none when a
resource is asked for, and after each request only the one that is held; all have been dropped in the end, each
once. The next request for a resource finds such a slot as well. -/
theorem performAll_lifeCycle (requests : List (Request κ ρ ε)) (key : κ) (create : κ → Except ε ρ) :
    let u := performAll requests
    let ended := Request.release.perform u
    (∀ t, t <+: ended.events → ∃ alive : Option ρ,
      t.filterMap Event.made? = t.filterMap Event.dropped? ++ alive.toList) ∧
    (∀ t k answer, t ++ [.tried k answer] <+: ended.events →
      t.filterMap Event.made? = t.filterMap Event.dropped?) ∧
    u.events.filterMap Event.made? = u.events.filterMap Event.dropped? ++ u.slot.get?.toList ∧
    ended.events.filterMap Event.made? = ended.events.filterMap Event.dropped? ∧
    Answers key create u (UseM.getOrCreate key create u).1 (UseM.getOrCreate key create u).2 := by
  intro u ended
  have hu : History u.events u.slot.entry := history_performAll requests
  have hended : History ended.events ended.slot.entry := Request.release.history_perform hu
  refine ⟨fun t ht => ?_, fun t k answer ht => ?_, hu.filterMap_made?, ?_, answers_getOrCreate key create hu⟩
  · obtain ⟨a, ha⟩ := hended.exists_of_isPrefix _ ht
    exact ⟨a.map Prod.snd, ha.filterMap_made?⟩
  · obtain ⟨a, ha⟩ := hended.exists_of_isPrefix _ ht
    simpa using ha.of_tried.filterMap_made?
  · have hempty : ended.slot.entry = none := by
      rw [show ended = (UseM.release u).2 from rfl, UseM.release_apply]
      rfl
    simpa [hempty] using hended.filterMap_made?

end Patchbay.Slot
