import Patchbay.Graph.AutoLink
import Patchbay.Proofs.Number.Order

/-!
# The nearest of several

`nearest?` goes through candidates once and gives up one for another only if that is strictly nearer.
It finds one whenever there is one (`nearest?_cons`). If all distances are numbers, it finds the earliest
of those that are nearest (`nearest?_spec`). A distance that is not a number would stand in the way of
all later ones: nothing is nearer.
-/

namespace Patchbay

variable {α β : Type}

/-! ## What is found -/

/-- The nearer one of the first two candidates goes on against the rest. -/
theorem nearest?_cons_cons (c x : Float32 × α) (rest : List (Float32 × α)) :
    nearest? (c :: x :: rest) =
      if x.1 < c.1 then nearest? (x :: rest) else nearest? (c :: rest) := by
  simp only [nearest?, List.foldl_cons]
  split_ifs <;> rfl

/-- Of several candidates one is the nearest, and it is one of them. -/
theorem nearest?_cons (c : Float32 × α) (candidates : List (Float32 × α)) :
    ∃ d a, nearest? (c :: candidates) = some a ∧ (d, a) ∈ c :: candidates := by
  induction candidates generalizing c with
  | nil => exact ⟨c.1, c.2, rfl, List.mem_cons_self⟩
  | cons x rest ih =>
    rw [nearest?_cons_cons]
    split_ifs
    · obtain ⟨d, a, heq, hmem⟩ := ih x
      exact ⟨d, a, heq, List.mem_cons_of_mem c hmem⟩
    · obtain ⟨d, a, heq, hmem⟩ := ih c
      refine ⟨d, a, heq, ?_⟩
      rcases List.mem_cons.mp hmem with hfirst | hrest
      · exact List.mem_cons.mpr (.inl hfirst)
      · exact List.mem_cons_of_mem c (List.mem_cons_of_mem x hrest)

theorem nearest?_mem {candidates : List (Float32 × α)} {a : α} (h : nearest? candidates = some a) :
    ∃ d, (d, a) ∈ candidates := by
  cases candidates with
  | nil => cases h
  | cons c rest =>
    obtain ⟨d, b, heq, hmem⟩ := nearest?_cons c rest
    exact ⟨d, Option.some.inj (h.symm.trans heq) ▸ hmem⟩

theorem nearest?_none {candidates : List (Float32 × α)} (h : nearest? candidates = none) :
    candidates = [] := by
  cases candidates with
  | nil => rfl
  | cons c rest =>
    obtain ⟨d, b, heq, -⟩ := nearest?_cons c rest
    rw [h] at heq
    cases heq

/-! ## Which one is found -/

/-- In a list, `x` is the earliest of those whose distance is the smallest: it is nearer than all that
come before it, and none that come after it is nearer. -/
def Nearest (distance : α → Float32) (xs : List α) (x : α) : Prop :=
  ∃ before after, xs = before ++ x :: after ∧ (∀ y ∈ before, distance x < distance y) ∧
    ∀ y ∈ after, distance x ≤ distance y

namespace Nearest

variable {distance : α → Float32} {xs : List α} {x y z : α}

theorem mem (h : Nearest distance xs x) : x ∈ xs := by
  obtain ⟨before, after, rfl, -, -⟩ := h
  simp

/-- A candidate farther away than the first one may be put in front. -/
theorem cons (h : Nearest distance (y :: xs) x) (hz : distance y < distance z) :
    Nearest distance (z :: y :: xs) x := by
  obtain ⟨before, after, heq, hbefore, hafter⟩ := h
  refine ⟨z :: before, after, by rw [heq]; rfl, ?_, hafter⟩
  rw [List.forall_mem_cons]
  refine ⟨?_, hbefore⟩
  cases before with
  | nil =>
    obtain ⟨rfl, -⟩ := List.cons.inj heq
    exact hz
  | cons b rest =>
    obtain ⟨rfl, -⟩ := List.cons.inj heq
    exact Single.lt_trans (hbefore y List.mem_cons_self) hz

/-- A candidate that is not nearer than the first one may be put behind it. -/
theorem insert (h : Nearest distance (y :: xs) x) (hz : distance y ≤ distance z) :
    Nearest distance (y :: z :: xs) x := by
  obtain ⟨before, after, heq, hbefore, hafter⟩ := h
  cases before with
  | nil =>
    obtain ⟨rfl, rfl⟩ := List.cons.inj heq
    exact ⟨[], z :: xs, rfl, by simp, List.forall_mem_cons.mpr ⟨hz, hafter⟩⟩
  | cons b rest =>
    obtain ⟨rfl, rfl⟩ := List.cons.inj heq
    obtain ⟨hy, hrest⟩ := List.forall_mem_cons.mp hbefore
    refine ⟨y :: z :: rest, after, rfl, ?_, hafter⟩
    simp only [List.forall_mem_cons]
    exact ⟨hy, Single.lt_of_lt_of_le hy hz, hrest⟩

end Nearest

/-- **If all distances are numbers, the earliest nearest candidate is found.** -/
theorem nearest?_spec {candidates : List (Float32 × α)} {a : α}
    (hnumbers : ∀ c ∈ candidates, c.1.isNaN = false) (h : nearest? candidates = some a) :
    ∃ d, Nearest Prod.fst candidates (d, a) := by
  cases candidates with
  | nil => cases h
  | cons c rest =>
    induction rest generalizing c with
    | nil =>
      obtain rfl := Option.some.inj h
      exact ⟨c.1, [], [], rfl, by simp, by simp⟩
    | cons x rest ih =>
      simp only [List.forall_mem_cons] at hnumbers ih
      obtain ⟨hc, hx, hrest⟩ := hnumbers
      rw [nearest?_cons_cons] at h
      split_ifs at h with hless
      · obtain ⟨d, hd⟩ := ih x ⟨hx, hrest⟩ h
        exact ⟨d, hd.cons hless⟩
      · obtain ⟨d, hd⟩ := ih c ⟨hc, hrest⟩ h
        exact ⟨d, hd.insert (Single.le_of_not_lt hx hc hless)⟩

/-- Candidates that are read off a list are read off its members that give one. -/
theorem Nearest.of_filterMap {distance : α → Float32} {offer : α → Option β} {xs : List α}
    {d : Float32} {b : β}
    (h : Nearest Prod.fst (xs.filterMap fun x => (offer x).map fun b => (distance x, b)) (d, b)) :
    ∃ x, offer x = some b ∧ Nearest distance (xs.filter fun x => (offer x).isSome) x := by
  obtain ⟨before, after, heq, hbefore, hafter⟩ := h
  obtain ⟨xs₁, ys, rfl, rfl, hys⟩ := List.filterMap_eq_append_iff.mp heq
  obtain ⟨xs₂, x, xs₃, rfl, hxs₂, hx, rfl⟩ := List.filterMap_eq_cons_iff.mp hys
  obtain ⟨b', hb', hpair⟩ := Option.map_eq_some_iff.mp hx
  obtain ⟨rfl, rfl⟩ := Prod.mk.inj hpair
  -- what offers nothing is dropped on both sides
  have hdropped : xs₂.filter (fun x => (offer x).isSome) = [] :=
    List.filter_eq_nil_iff.mpr fun y hy => by simpa using hxs₂ y hy
  refine ⟨x, hb', xs₁.filter fun x => (offer x).isSome, xs₃.filter fun x => (offer x).isSome, ?_,
    fun y hy => ?_, fun y hy => ?_⟩
  · simp [List.filter_append, hdropped, hb']
  all_goals
    obtain ⟨hmem, hsome⟩ := List.mem_filter.mp hy
    obtain ⟨c, hc⟩ := Option.isSome_iff_exists.mp hsome
  · exact hbefore (distance y, c) (List.mem_filterMap.mpr ⟨y, hmem, by rw [hc]; rfl⟩)
  · exact hafter (distance y, c) (List.mem_filterMap.mpr ⟨y, hmem, by rw [hc]; rfl⟩)

/-- What is nearest among candidates that are paired with their distances. -/
theorem Nearest.of_map {distance : α → Float32} {xs : List α} {d : Float32} {x : α}
    (h : Nearest Prod.fst (xs.map fun x => (distance x, x)) (d, x)) : Nearest distance xs x := by
  obtain ⟨before, after, heq, hbefore, hafter⟩ := h
  obtain ⟨xs₁, ys, rfl, rfl, hys⟩ := List.map_eq_append_iff.mp heq
  obtain ⟨y, xs₂, rfl, hy, rfl⟩ := List.map_eq_cons_iff.mp hys
  obtain ⟨rfl, rfl⟩ := Prod.mk.inj hy
  exact ⟨xs₁, xs₂, rfl,
    fun z hz => hbefore (distance z, z) (List.mem_map.mpr ⟨z, hz, rfl⟩),
    fun z hz => hafter (distance z, z) (List.mem_map.mpr ⟨z, hz, rfl⟩)⟩

end Patchbay
