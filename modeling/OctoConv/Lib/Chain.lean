import Mathlib.Data.List.Basic

/-!
# Walking along links

A walk follows links from a start until it meets a place where a chain ends. It refuses to visit a place
twice, to follow an unknown link and to visit more than a number of places, so it ends, and it succeeds
exactly on the chains that end within the bound without a repetition.

Main results:

* `follow_eq_some` — the walk succeeds exactly on such chains;
* `chained_and` — a condition on every link is one on every place.
-/

namespace Conc

variable {α : Type*} [DecidableEq α]

/-- The places from `x` on to the end of the chain. -/
inductive Chained (stop : α → Prop) (link : α → α → Prop) : α → List α → Prop
  | nil {x : α} : stop x → Chained stop link x []
  | cons {x y : α} {path : List α} :
      ¬ stop x → link x y → Chained stop link y path → Chained stop link x (x :: path)

omit [DecidableEq α] in
/-- A condition on every link is one on every place of the chain. -/
theorem chained_and {stop : α → Prop} {link : α → α → Prop} {P : α → Prop} {x : α} {path : List α} :
    Chained stop (fun x y => P x ∧ link x y) x path ↔ Chained stop link x path ∧ ∀ y ∈ path, P y := by
  constructor
  · intro h
    induction h with
    | nil hstop => exact ⟨.nil hstop, by simp⟩
    | cons hstop hlink _ ih =>
      refine ⟨.cons hstop hlink.2 ih.1, ?_⟩
      intro y hy
      rcases List.mem_cons.mp hy with rfl | hy
      · exact hlink.1
      · exact ih.2 y hy
  · rintro ⟨h, hP⟩
    induction h with
    | nil hstop => exact .nil hstop
    | cons hstop hlink _ ih =>
      exact .cons hstop ⟨hP _ List.mem_cons_self, hlink⟩
        (ih fun y hy => hP y (List.mem_cons_of_mem _ hy))

omit [DecidableEq α] in
/-- No place of the chain is where a chain ends. -/
theorem not_stop_of_mem {stop : α → Prop} {link : α → α → Prop} {x y : α} {path : List α}
    (h : Chained stop link x path) (hy : y ∈ path) : ¬ stop y := by
  induction h with
  | nil hstop => exact absurd hy List.not_mem_nil
  | cons hstop _ _ ih =>
    rcases List.mem_cons.mp hy with rfl | hy
    · exact hstop
    · exact ih hy

section walk

variable (stop : α → Prop) [DecidablePred stop] (link : α → Option α)

/-- The walk: the places in order, if it succeeds. `room` more places may be visited. -/
def follow : Nat → List α → α → Option (List α)
  | room, visited, x =>
    if stop x then some []
    else if x ∈ visited then none
    else
      match room with
      | 0 => none
      | room + 1 => (link x).bind fun y => (follow room (x :: visited) y).map (x :: ·)

variable {stop link}

/-- The chain goes on at a new place. -/
theorem follow_succ {room : Nat} {visited : List α} {x : α} (hstop : ¬ stop x)
    (hvisited : x ∉ visited) :
    follow stop link (room + 1) visited x =
      (link x).bind fun y => (follow stop link room (x :: visited) y).map (x :: ·) := by
  conv => lhs; unfold follow
  exact (if_neg hstop).trans (if_neg hvisited)

/-- The chain ends where it has to. -/
theorem follow_stop {room : Nat} {visited : List α} {x : α} (hstop : stop x) :
    follow stop link room visited x = some [] := by
  unfold follow
  exact if_pos hstop

/-- The chain does not come back. -/
theorem follow_visited {room : Nat} {visited : List α} {x : α} (hstop : ¬ stop x)
    (hvisited : x ∈ visited) : follow stop link room visited x = none := by
  unfold follow
  exact (if_neg hstop).trans (if_pos hvisited)

/-- Without room the chain ends nowhere. -/
theorem follow_zero {visited : List α} {x : α} (hstop : ¬ stop x) :
    follow stop link 0 visited x = none := by
  unfold follow
  rw [if_neg hstop]
  split <;> rfl

/-- What a walk that succeeds has found first. -/
theorem follow_inv {room : Nat} {visited : List α} {x : α} {path : List α}
    (h : follow stop link room visited x = some path) :
    stop x ∧ path = [] ∨
      ¬ stop x ∧ x ∉ visited ∧ ∃ room' y path', room = room' + 1 ∧ link x = some y ∧
        follow stop link room' (x :: visited) y = some path' ∧ path = x :: path' := by
  by_cases hstop : stop x
  · rw [follow_stop hstop] at h
    exact .inl ⟨hstop, (Option.some.inj h).symm⟩
  by_cases hvisited : x ∈ visited
  · rw [follow_visited hstop hvisited] at h
    exact absurd h (by simp)
  rcases room with _ | room
  · rw [follow_zero hstop] at h
    exact absurd h (by simp)
  · rw [follow_succ hstop hvisited] at h
    obtain ⟨y, hy, h⟩ := Option.bind_eq_some_iff.mp h
    obtain ⟨path', hpath', rfl⟩ := Option.map_eq_some_iff.mp h
    exact .inr ⟨hstop, hvisited, room, y, path', rfl, hy, hpath', rfl⟩

/-- The walk succeeds exactly on the chains that end within the bound without a repetition. -/
theorem follow_eq_some {Link : α → α → Prop} (hlink : ∀ x y, link x = some y ↔ Link x y) {room : Nat}
    {visited : List α} {x : α} {path : List α} :
    follow stop link room visited x = some path ↔
      Chained stop Link x path ∧ path.length ≤ room ∧ path.Nodup ∧ ∀ y ∈ path, y ∉ visited := by
  constructor
  · intro h
    induction room generalizing visited x path with
    | zero =>
      rcases follow_inv h with ⟨hstop, rfl⟩ | ⟨-, -, room', -, -, hroom, -⟩
      · exact ⟨.nil hstop, Nat.zero_le _, List.nodup_nil, by simp⟩
      · exact absurd hroom (Nat.succ_ne_zero room').symm
    | succ room ih =>
      rcases follow_inv h with ⟨hstop, rfl⟩ | ⟨hstop, hvisited, room', y, path', hroom, hy, hrest, rfl⟩
      · exact ⟨.nil hstop, Nat.zero_le _, List.nodup_nil, by simp⟩
      · obtain rfl := Nat.succ.inj hroom
        obtain ⟨hfollows, hlen, hnodup, hfresh⟩ := ih hrest
        refine ⟨.cons hstop ((hlink x y).mp hy) hfollows, Nat.succ_le_succ hlen, ?_, ?_⟩
        · exact List.nodup_cons.mpr ⟨fun hmem => hfresh x hmem List.mem_cons_self, hnodup⟩
        · intro z hz
          rcases List.mem_cons.mp hz with rfl | hz
          · exact hvisited
          · exact fun hmem => hfresh z hz (List.mem_cons_of_mem _ hmem)
  · rintro ⟨hfollows, hlen, hnodup, hfresh⟩
    induction hfollows generalizing room visited with
    | nil hstop => exact follow_stop hstop
    | @cons x y path hstop hl _ ih =>
      obtain ⟨hnot, hnodup⟩ := List.nodup_cons.mp hnodup
      rcases room with _ | room
      · exact absurd hlen (by simp)
      rw [follow_succ hstop (hfresh x List.mem_cons_self), (hlink x y).mpr hl, Option.bind_some,
        ih (Nat.le_of_succ_le_succ hlen) hnodup]
      · rfl
      · intro z hz hmem
        rcases List.mem_cons.mp hmem with rfl | hmem
        · exact hnot hz
        · exact hfresh z (List.mem_cons_of_mem _ hz) hmem

end walk

end Conc
