import Mathlib.Data.List.Dedup
import Mathlib.Data.Prod.Lex
import Mathlib.Data.String.Basic
import OctoConv.Api.Request

/-!
# The list of formats

`GET /v1/formats` is answered from the registry that create requests are checked against. The registry
is a map and is walked in any order; the pairs of an engine class are sorted, so the order does not
show.

Source: `internal/convert/convert.go` Classes, `internal/api/formats_handlers.go`.

## Main results

* `classes_walk` — the answer does not depend on the order of the walk.
* `formats_listed` — a conversion passes the check of a create request exactly if it is listed.
-/

namespace OctoConv

namespace Registry

/-- A walk over the map meets each of its pairs once, in any order. -/
structure Walk (r : Registry) (walk : List Pair) : Prop where
  nodup : walk.Nodup
  mem : ∀ p, p ∈ walk ↔ (r.m p).isSome

/-- The order of the pairs.

Source: `convert.go` Classes -/
def less (p q : Pair) : Bool :=
  if p.source ≠ q.source then decide (p.source < q.source) else decide (p.target < q.target)

/-- One pair of the walk is appended to those of its class. -/
def collect (r : Registry) (out : Engine → Option (List Pair)) (p : Pair) :
    Engine → Option (List Pair) :=
  match r.m p with
  | none => out
  | some c => fun engine =>
    if engine = c.engine then some ((out engine).getD [] ++ [p]) else out engine

/-- Source: `convert.go` Classes -/
def classes (r : Registry) (walk : List Pair) (engine : Engine) : Option (List Pair) :=
  (walk.foldl r.collect (fun _ => none) engine).map fun pairs => pairs.mergeSort fun p q => !less q p

/-! ## The order -/

/-- Pairs are compared by their sources first. -/
def key (p : Pair) : String ×ₗ String := toLex (p.source, p.target)

/-- A pair is known by its key. -/
theorem key_injective : Function.Injective key := by
  intro p q h
  obtain ⟨hs, ht⟩ := Prod.mk.inj (toLex.injective h)
  cases p
  cases q
  cases hs
  cases ht
  rfl

/-- The order of the listing is that of the keys. -/
theorem less_iff {p q : Pair} : less p q = true ↔ key p < key q := by
  unfold less key
  rw [Prod.Lex.toLex_lt_toLex]
  by_cases h : p.source = q.source <;> simp [h]

/-- Its negation is the order the other way round. -/
theorem not_less_iff {p q : Pair} : (!less q p) = true ↔ key p ≤ key q := by
  rw [Bool.not_eq_true', Bool.eq_false_iff, Ne, less_iff, not_lt]

/-- What is sorted is sorted by key. -/
theorem pairwise_key (pairs : List Pair) :
    (pairs.mergeSort fun p q => !less q p).Pairwise fun p q => key p ≤ key q := by
  refine (List.pairwise_mergeSort ?_ ?_ pairs).imp fun h => not_less_iff.mp h
  · intro p q s hpq hqs
    rw [not_less_iff] at hpq hqs ⊢
    exact hpq.trans hqs
  · intro p q
    rw [Bool.or_eq_true, not_less_iff, not_less_iff]
    exact le_total _ _

/-! ## The classes -/

/-- The pair is registered with a converter of the class. -/
def ofEngine (r : Registry) (engine : Engine) (p : Pair) : Bool :=
  (r.m p).map Converter.engine = some engine

variable {r : Registry} {walk walk' : List Pair} {engine : Engine} {p : Pair} {pairs : List Pair}

/-- What the walk has collected for an engine. -/
theorem foldl_collect (out : Engine → Option (List Pair)) :
    walk.foldl r.collect out engine =
      if walk.filter (r.ofEngine engine) = [] then out engine
      else some ((out engine).getD [] ++ walk.filter (r.ofEngine engine)) := by
  induction walk generalizing out with
  | nil => rfl
  | cons p walk ih =>
    rw [List.foldl_cons, ih]
    rcases hp : r.m p with _ | c
    · have hnot : r.ofEngine engine p = false := by simp [ofEngine, hp]
      have hout : r.collect out p = out := by simp [collect, hp]
      rw [List.filter_cons_of_neg (by simp [hnot]), hout]
    · by_cases hc : engine = c.engine
      · have hyes : r.ofEngine engine p = true := by simp [ofEngine, hp, hc]
        have hout : r.collect out p engine = some ((out engine).getD [] ++ [p]) := by
          simp [collect, hp, hc]
        rw [List.filter_cons_of_pos hyes, hout, if_neg (List.cons_ne_nil _ _)]
        split
        · rename_i hnil
          rw [hnil]
        · simp
      · have hnot : r.ofEngine engine p = false := by simp [ofEngine, hp, Ne.symm hc]
        have hout : r.collect out p engine = out engine := by simp [collect, hp, hc]
        rw [List.filter_cons_of_neg (by simp [hnot]), hout]

/-- The pairs of an engine, in their order, if it has any. -/
theorem classes_eq : r.classes walk engine =
    if walk.filter (r.ofEngine engine) = [] then none
    else some ((walk.filter (r.ofEngine engine)).mergeSort fun p q => !less q p) := by
  rw [classes, foldl_collect]
  split <;> simp

/-- They are those of the walk, and sorted. -/
theorem classes_some (h : r.classes walk engine = some pairs) :
    pairs.Perm (walk.filter (r.ofEngine engine)) ∧ pairs ≠ [] ∧
      pairs.Pairwise fun p q => key p ≤ key q := by
  rw [classes_eq] at h
  split at h
  · cases h
  · rename_i hne
    obtain rfl := Option.some.inj h
    have hperm := List.mergeSort_perm (walk.filter (r.ofEngine engine)) fun p q => !less q p
    exact ⟨hperm, fun hnil => hne (List.perm_nil.mp (hnil ▸ hperm.symm)), pairwise_key _⟩

/-- The order of the walk does not show. -/
theorem classes_walk (h : r.Walk walk) (h' : r.Walk walk') : r.classes walk = r.classes walk' := by
  funext engine
  have hwalk : walk.Perm walk' :=
    (List.perm_ext_iff_of_nodup h.nodup h'.nodup).mpr fun p => (h.mem p).trans (h'.mem p).symm
  have hfilter := hwalk.filter (r.ofEngine engine)
  have hsort : ((walk.filter (r.ofEngine engine)).mergeSort fun p q => !less q p) =
      (walk'.filter (r.ofEngine engine)).mergeSort fun p q => !less q p := by
    refine List.Perm.eq_of_pairwise (fun p q _ _ hpq hqp => ?_) (pairwise_key _) (pairwise_key _) ?_
    · exact key_injective (le_antisymm hpq hqp)
    · exact (List.mergeSort_perm _ _).trans (hfilter.trans (List.mergeSort_perm _ _).symm)
  have hnil : walk.filter (r.ofEngine engine) = [] ↔ walk'.filter (r.ofEngine engine) = [] :=
    ⟨fun hnil => List.perm_nil.mp (hnil ▸ hfilter.symm), fun hnil => List.perm_nil.mp (hnil ▸ hfilter)⟩
  simp only [classes_eq, hsort, hnil]

/-- The pairs of a class are those that are registered with a converter of it. -/
theorem mem_classes (h : r.Walk walk) : (∃ pairs, r.classes walk engine = some pairs ∧ p ∈ pairs) ↔
    (r.m p).map Converter.engine = some engine := by
  have hfilter : p ∈ walk.filter (r.ofEngine engine) ↔ (r.m p).map Converter.engine = some engine := by
    rw [List.mem_filter, h.mem, ofEngine, decide_eq_true_eq]
    refine ⟨fun h => h.2, fun h => ⟨?_, h⟩⟩
    obtain ⟨c, hc, -⟩ := Option.map_eq_some_iff.mp h
    exact Option.isSome_iff_exists.mpr ⟨c, hc⟩
  constructor
  · rintro ⟨pairs, hpairs, hp⟩
    exact hfilter.mp ((classes_some hpairs).1.mem_iff.mp hp)
  · intro hp
    have hin := hfilter.mpr hp
    rw [classes_eq, if_neg (List.ne_nil_of_mem hin)]
    exact ⟨_, rfl, List.mem_mergeSort.mpr hin⟩

/-- The pairs of a class are listed in their order, each of them once. -/
theorem classes_sorted (h : r.Walk walk) (hpairs : r.classes walk engine = some pairs) :
    pairs.Pairwise fun p q => less p q = true := by
  obtain ⟨hperm, -, hle⟩ := classes_some hpairs
  have hnodup : pairs.Nodup := hperm.nodup_iff.mpr (h.nodup.filter _)
  refine (hle.and hnodup).imp fun hpq => ?_
  exact less_iff.mpr (lt_of_le_of_ne hpq.1 fun hkey => hpq.2 (key_injective hkey))

end Registry

namespace Api

/-- Source: `formats_handlers.go` engineFormats -/
structure EngineFormats where
  pairs : List (String × String)

/-- The answer, by engine class.

Source: `formats_handlers.go` handleListFormats -/
def handleListFormats (walk : List Pair) (engine : Engine) : Option EngineFormats :=
  (Registry.default.classes walk engine).map fun pairs => ⟨pairs.map fun p => (p.source, p.target)⟩

/-- The conversion is listed under the engine class. -/
def Listed (walk : List Pair) (engine : Engine) (source target : String) : Prop :=
  ∃ formats, handleListFormats walk engine = some formats ∧ (source, target) ∈ formats.pairs

variable {walk : List Pair}

/-- A pair is listed under an engine exactly if its converter is one of that engine. -/
theorem listed_pair (h : Registry.default.Walk walk) {engine : Engine} {source target : String} :
    Listed walk engine source target ↔
      (Registry.default.m ⟨source, target⟩).map Converter.engine = some engine := by
  rw [← Registry.mem_classes h]
  constructor
  · rintro ⟨formats, hformats, hin⟩
    obtain ⟨pairs, hpairs, rfl⟩ := Option.map_eq_some_iff.mp hformats
    obtain ⟨p, hp, heq⟩ := List.mem_map.mp hin
    obtain ⟨rfl, rfl⟩ := Prod.mk.inj heq
    exact ⟨pairs, hpairs, hp⟩
  · rintro ⟨pairs, hpairs, hp⟩
    have hformats : handleListFormats walk engine = some ⟨pairs.map fun p => (p.source, p.target)⟩ :=
      Option.map_eq_some_iff.mpr ⟨pairs, hpairs, rfl⟩
    exact ⟨_, hformats, List.mem_map.mpr ⟨⟨source, target⟩, hp, rfl⟩⟩

/-- The names are normalized before they are looked up. -/
theorem listed_iff (h : Registry.default.Walk walk) {engine : Engine} {source target : String} :
    Listed walk engine (normalizeFormat source) (normalizeFormat target) ↔
      Registry.default.engineFor source target = some engine := by
  rw [listed_pair h, Registry.engineFor, Registry.lookup]

/-- The check of a create request passes for what is listed. -/
theorem checkPair_iff (h : Registry.default.Walk walk) {f : Fields} {target : String} {d : Detection}
    {engine : Engine} : checkPair f target d = .ok engine ↔
      d.detected ≠ "" ∧ d.detected = f.source ∧
        Listed walk engine (normalizeFormat d.detected) (normalizeFormat target) := by
  rw [listed_iff h]
  refine ⟨checkPair_ok, fun ⟨hne, hsource, hengine⟩ => ?_⟩
  rw [checkPair, if_neg hne, if_neg (not_not.mpr hsource), hengine]

/-- **What is listed is what is accepted.** The answer is the same in whatever order the registry is
walked; it lists the pairs of a class in their order and each once; and the format of an upload and the
target pass the check of a create request exactly if they are listed. -/
theorem formats_listed (h : Registry.default.Walk walk) :
    (∀ walk', Registry.default.Walk walk' → handleListFormats walk' = handleListFormats walk) ∧
    (∀ engine formats, handleListFormats walk engine = some formats → formats.pairs ≠ [] ∧
      formats.pairs.Pairwise fun p q => p.1 < q.1 ∨ p.1 = q.1 ∧ p.2 < q.2) ∧
    ∀ f target d engine, checkPair f target d = .ok engine ↔
      d.detected ≠ "" ∧ d.detected = f.source ∧
        Listed walk engine (normalizeFormat d.detected) (normalizeFormat target) := by
  refine ⟨fun walk' h' => ?_, fun engine formats hformats => ?_, fun _ _ _ _ => checkPair_iff h⟩
  · funext engine
    rw [handleListFormats, Registry.classes_walk h' h, handleListFormats]
  · obtain ⟨pairs, hpairs, rfl⟩ := Option.map_eq_some_iff.mp hformats
    refine ⟨fun hnil => (Registry.classes_some hpairs).2.1 (List.map_eq_nil_iff.mp hnil), ?_⟩
    refine List.pairwise_map.mpr ((Registry.classes_sorted h hpairs).imp fun hless => ?_)
    exact Prod.Lex.toLex_lt_toLex.mp (Registry.less_iff.mp hless)

/-- A walk over the registry that every process starts with. -/
def defaultWalk : List Pair :=
  ([Converter.av 0 0, .audio, .chromium, .libreOffice, .libvips].flatMap Converter.pairs).dedup

/-- The pairs of the default registry are a walk of it. -/
theorem defaultWalk_walk : Registry.default.Walk defaultWalk where
  nodup := List.nodup_dedup _
  mem p := by
    rw [defaultWalk, List.mem_dedup, List.mem_flatMap, Registry.default_m, List.find?_isSome]
    simp only [decide_eq_true_eq]

/-- The default registry is listed. -/
theorem formats_listed_default :
    (∀ walk', Registry.default.Walk walk' → handleListFormats walk' = handleListFormats defaultWalk) ∧
    (∀ engine formats, handleListFormats defaultWalk engine = some formats → formats.pairs ≠ [] ∧
      formats.pairs.Pairwise fun p q => p.1 < q.1 ∨ p.1 = q.1 ∧ p.2 < q.2) ∧
    ∀ f target d engine, checkPair f target d = .ok engine ↔
      d.detected ≠ "" ∧ d.detected = f.source ∧
        Listed defaultWalk engine (normalizeFormat d.detected) (normalizeFormat target) :=
  formats_listed defaultWalk_walk

end Api

end OctoConv
