import OctoConv.Convert.Cfb
import OctoConv.Lib.Chain

/-!
# The directory chain of a compound file

What decides about a compound file is the chain of its directory sectors: from the sector that the
header names, along the links of the allocation table, to a number that is no sector. The
classification is the one of the names of the entries on that chain, where it lies in the file, ends
within the bound and meets no sector twice; in all other cases the file is not classified.

Source: `internal/convert/cfb.go`.

## Main results

* `buildCFBFAT_eq_some` — the links that are collected are those of the table.
* `cfbWalkFrom_eq` — the loop is a walk along the links.
* `classifyCFB_iff` — the classes in terms of the chain.
-/

namespace OctoConv

open Conc

/-! ## What the file says -/

/-- The number is no sector. -/
def Reserved (sector : Nat) : Prop := cfbSentinelThreshold ≤ sector

instance : DecidablePred Reserved := fun sector => inferInstanceAs (Decidable (_ ≤ sector))

/-- The sector lies in the file. -/
def SectorInside (data : Bytes) (sectorSize sector : Nat) : Prop :=
  cfbSectorOffset sector sectorSize + sectorSize ≤ data.length

/-- A header that is read: sectors of 512 or 4096 bytes, and no sectors that continue the list of the
table's sectors. -/
structure CfbHeader (data : Bytes) (sectorSize : Nat) : Prop where
  size : cfbHeaderSize ≤ data.length
  magic : data.take 8 = oleCFBMagic
  sectors : leAt data 30 2 = 9 ∧ sectorSize = 512 ∨ leAt data 30 2 = 12 ∧ sectorSize = 4096
  complete : leAt data 68 4 = cfbEndOfChain

/-- A sector of the allocation table that the header names. -/
def fatSector (data : Bytes) (i : Nat) : Nat := leAt data (cfbDIFATOffset + i * 4) 4

/-- The sectors of the table that the header names lie in the file. -/
def FatInside (data : Bytes) (sectorSize : Nat) : Prop :=
  ∀ i < cfbNumHeaderDIFATSlots, Reserved (fatSector data i) ∨
    SectorInside data sectorSize (fatSector data i)

/-- The table covers the sector, and links it to this number. -/
def FatLink (data : Bytes) (sectorSize sector next : Nat) : Prop :=
  ∃ i j, i < cfbNumHeaderDIFATSlots ∧ j < sectorSize / 4 ∧ sector = i * (sectorSize / 4) + j ∧
    ¬ Reserved (fatSector data i) ∧
    next = leAt data (cfbSectorOffset (fatSector data i) sectorSize + j * 4) 4

/-- The chain of the directory: along links of the table, in the file, without a repetition and of
at most 4096 sectors, to a number that is no sector. -/
structure DirChain (data : Bytes) (sectorSize : Nat) (path : List Nat) : Prop where
  follows : Chained Reserved (FatLink data sectorSize) (leAt data 48 4) path
  inside : ∀ sector ∈ path, SectorInside data sectorSize sector
  nodup : path.Nodup
  length_le : path.length ≤ cfbMaxDirSectors

/-- The code units of the name field of an entry, without the zero at its end. -/
def nameUnits (entry : Bytes) : List Nat :=
  let units := (List.range (leAt entry 64 2 / 2)).map fun k => leAt entry (k * 2) 2
  if units.getLast? = some 0 then units.dropLast else units

/-- An entry that is allocated and well formed, with its name. -/
structure EntryNamed (entry : Bytes) (name : List Char) : Prop where
  allocated : leAt entry 66 1 ≠ 0
  well_formed : 2 ≤ leAt entry 64 2 ∧ leAt entry 64 2 ≤ cfbNameFieldSize ∧ leAt entry 64 2 % 2 = 0
  named : name = utf16Decode (nameUnits entry)

/-- An entry on the chain has this name. -/
def NameOn (data : Bytes) (sectorSize : Nat) (path : List Nat) (name : List Char) : Prop :=
  ∃ sector ∈ path, ∃ e < sectorSize / cfbEntrySize,
    EntryNamed ((data.drop (cfbSectorOffset sector sectorSize + e * cfbEntrySize)).take
      cfbEntrySize) name

/-! ## Reading -/

/-- A number in a part of the file that is long enough. -/
theorem leAt_take (data : Bytes) (start : Nat) {n off width : Nat} (h : off + width ≤ n) :
    leAt ((data.drop start).take n) off width = leAt data (start + off) width := by
  unfold leAt
  rw [List.drop_take, List.take_take, List.drop_drop, Nat.min_eq_left (by omega)]

/-- The header is read as it is in the file. -/
theorem leAt_header {data : Bytes} {off width : Nat} (h : off + width ≤ cfbHeaderSize) :
    leAt (readAt data cfbHeaderSize 0) off width = leAt data off width := by
  have htake := leAt_take data 0 h
  rw [Nat.zero_add] at htake
  exact htake

/-- A sector is read exactly if it is one and lies in the file. -/
theorem cfbSector_eq_some {data b : Bytes} {sectorSize sector : Nat} :
    cfbSector data sectorSize data.length sector = some b ↔
      (¬ Reserved sector ∧ SectorInside data sectorSize sector) ∧
        b = readAt data sectorSize (cfbSectorOffset sector sectorSize) := by
  have hbounds : cfbSectorInBounds sector sectorSize data.length = true ↔
      ¬ Reserved sector ∧ SectorInside data sectorSize sector := by
    unfold cfbSectorInBounds
    rw [Bool.and_eq_true, decide_eq_true_eq, decide_eq_true_eq]
    exact and_congr_left' Nat.not_le.symm
  unfold cfbSector
  by_cases h : ¬ Reserved sector ∧ SectorInside data sectorSize sector
  · have hinside : cfbSectorOffset sector sectorSize + sectorSize ≤ data.length := h.2
    have hlen : (readAt data sectorSize (cfbSectorOffset sector sectorSize)).length = sectorSize := by
      unfold readAt
      rw [List.length_take, List.length_drop]
      omega
    rw [if_pos (hbounds.mpr h)]
    dsimp only
    rw [if_pos hlen]
    exact ⟨fun heq => ⟨h, (Option.some.inj heq).symm⟩, fun heq => congrArg some heq.2.symm⟩
  · rw [if_neg (fun hb => h (hbounds.mp hb))]
    exact ⟨fun heq => absurd heq (by simp), fun heq => absurd heq.1 h⟩

/-! ## The table -/

/-- A list is mapped if each of its elements is. -/
theorem mapM_of_forall {α β : Type} {f : α → Option β} {g : α → β} {l : List α}
    (h : ∀ x ∈ l, f x = some (g x)) : l.mapM f = some (l.map g) := by
  induction l with
  | nil => rfl
  | cons x l ih =>
    rw [List.mapM_cons, h x List.mem_cons_self, ih fun y hy => h y (List.mem_cons_of_mem _ hy)]
    rfl

/-- And then each of them is. -/
theorem forall_of_mapM {α β : Type} {f : α → Option β} {l : List α} {r : List β}
    (h : l.mapM f = some r) : ∀ x ∈ l, ∃ y, f x = some y := by
  induction l generalizing r with
  | nil => simp
  | cons x l ih =>
    rw [List.mapM_cons] at h
    obtain ⟨y, hy, h⟩ := Option.bind_eq_some_iff.mp h
    obtain ⟨ys, hys, -⟩ := Option.bind_eq_some_iff.mp h
    intro z hz
    rcases List.mem_cons.mp hz with rfl | hz
    · exact ⟨y, hy⟩
    · exact ih hys z hz

/-- The links that a sector of the table holds. -/
def slotLinks (data : Bytes) (sectorSize i : Nat) : List (Nat × Nat) :=
  if Reserved (fatSector data i) then []
  else (List.range (sectorSize / 4)).map fun j =>
    (i * (sectorSize / 4) + j, leAt data (cfbSectorOffset (fatSector data i) sectorSize + j * 4) 4)

/-- The links of the table. -/
def fatLinks (data : Bytes) (sectorSize : Nat) : List (Nat × Nat) :=
  ((List.range cfbNumHeaderDIFATSlots).map (slotLinks data sectorSize)).flatten

variable {data : Bytes} {sectorSize : Nat}

/-- What a slot of the header gives of the allocation table. -/
theorem cfbFATSlot_eq {i : Nat} (hi : i < cfbNumHeaderDIFATSlots) :
    cfbFATSlot data (readAt data cfbHeaderSize 0) sectorSize data.length i =
      if Reserved (fatSector data i) then some []
      else (cfbSector data sectorSize data.length (fatSector data i)).map fun b =>
        (List.range (sectorSize / 4)).map fun j => (i * (sectorSize / 4) + j, leAt b (j * 4) 4) := by
  have hslot : leAt (readAt data cfbHeaderSize 0) (cfbDIFATOffset + i * 4) 4 = fatSector data i := by
    apply leAt_header
    unfold cfbDIFATOffset cfbHeaderSize
    unfold cfbNumHeaderDIFATSlots at hi
    omega
  unfold cfbFATSlot
  rw [hslot]
  rfl

/-- The links that are collected are those of the table. -/
theorem buildCFBFAT_eq_some {fat : List (Nat × Nat)} :
    buildCFBFAT data (readAt data cfbHeaderSize 0) sectorSize data.length = some fat ↔
      FatInside data sectorSize ∧ fat = fatLinks data sectorSize := by
  have hslot : ∀ i < cfbNumHeaderDIFATSlots,
      Reserved (fatSector data i) ∨ SectorInside data sectorSize (fatSector data i) →
      cfbFATSlot data (readAt data cfbHeaderSize 0) sectorSize data.length i =
        some (slotLinks data sectorSize i) := by
    intro i hi hinside
    rw [cfbFATSlot_eq hi]
    unfold slotLinks
    by_cases hreserved : Reserved (fatSector data i)
    · rw [if_pos hreserved, if_pos hreserved]
    · rw [if_neg hreserved, if_neg hreserved,
        cfbSector_eq_some.mpr ⟨⟨hreserved, hinside.resolve_left hreserved⟩, rfl⟩, Option.map_some]
      congr 1
      apply List.map_congr_left
      intro j hj
      have hj : j < sectorSize / 4 := List.mem_range.mp hj
      rw [readAt, leAt_take _ _ (by omega)]
  unfold buildCFBFAT
  constructor
  · intro h
    obtain ⟨slots, hslots, rfl⟩ := Option.map_eq_some_iff.mp h
    have hinside : FatInside data sectorSize := by
      intro i hi
      obtain ⟨links, hlinks⟩ := forall_of_mapM hslots i (List.mem_range.mpr hi)
      rw [cfbFATSlot_eq hi] at hlinks
      split at hlinks
      · rename_i hreserved
        exact .inl hreserved
      · obtain ⟨b, hb, -⟩ := Option.map_eq_some_iff.mp hlinks
        exact .inr (cfbSector_eq_some.mp hb).1.2
    refine ⟨hinside, ?_⟩
    have hall := mapM_of_forall fun i hi =>
      hslot i (List.mem_range.mp hi) (hinside i (List.mem_range.mp hi))
    obtain rfl := Option.some.inj (hslots.symm.trans hall)
    rfl
  · rintro ⟨hinside, rfl⟩
    rw [mapM_of_forall fun i hi =>
      hslot i (List.mem_range.mp hi) (hinside i (List.mem_range.mp hi))]
    rfl

/-- A link is collected exactly if the table has it. -/
theorem mem_fatLinks {sector next : Nat} :
    (sector, next) ∈ fatLinks data sectorSize ↔ FatLink data sectorSize sector next := by
  unfold fatLinks
  rw [List.mem_flatten]
  constructor
  · rintro ⟨links, hlinks, hmem⟩
    obtain ⟨i, hi, rfl⟩ := List.mem_map.mp hlinks
    unfold slotLinks at hmem
    split at hmem
    · exact absurd hmem List.not_mem_nil
    · rename_i hreserved
      obtain ⟨j, hj, heq⟩ := List.mem_map.mp hmem
      obtain ⟨rfl, rfl⟩ := Prod.mk.inj heq
      exact ⟨i, j, List.mem_range.mp hi, List.mem_range.mp hj, rfl, hreserved, rfl⟩
  · rintro ⟨i, j, hi, hj, rfl, hreserved, rfl⟩
    refine ⟨_, List.mem_map_of_mem (List.mem_range.mpr hi), ?_⟩
    unfold slotLinks
    rw [if_neg hreserved]
    exact List.mem_map.mpr ⟨j, List.mem_range.mpr hj, rfl⟩

/-- The table has one link for a sector. -/
theorem FatLink.unique {sector next next' : Nat} (h : FatLink data sectorSize sector next)
    (h' : FatLink data sectorSize sector next') : next = next' := by
  obtain ⟨i, j, -, hj, rfl, -, rfl⟩ := h
  obtain ⟨i', j', -, hj', heq, -, rfl⟩ := h'
  have hpos : 0 < sectorSize / 4 := by omega
  have hi : i = i' := by
    have h1 : (i * (sectorSize / 4) + j) / (sectorSize / 4) = i := by
      rw [Nat.mul_comm, Nat.mul_add_div hpos, Nat.div_eq_of_lt hj, Nat.add_zero]
    have h2 : (i' * (sectorSize / 4) + j') / (sectorSize / 4) = i' := by
      rw [Nat.mul_comm, Nat.mul_add_div hpos, Nat.div_eq_of_lt hj', Nat.add_zero]
    rw [← h1, heq, h2]
  subst hi
  obtain rfl : j = j' := by omega
  rfl

/-- A look-up finds the link of the table. -/
theorem lookup_fatLinks {sector next : Nat} :
    (fatLinks data sectorSize).lookup sector = some next ↔ FatLink data sectorSize sector next := by
  rw [← mem_fatLinks]
  constructor
  · intro h
    obtain ⟨before, after, hsplit, -⟩ := List.lookup_eq_some_iff.mp h
    rw [hsplit]
    simp
  · intro h
    rcases hlookup : (fatLinks data sectorSize).lookup sector with _ | next'
    · have hnot := List.lookup_eq_none_iff.mp hlookup _ h
      simp at hnot
    · obtain ⟨before, after, hsplit, -⟩ := List.lookup_eq_some_iff.mp hlookup
      have hmem : (sector, next') ∈ fatLinks data sectorSize := by
        rw [hsplit]
        simp
      rw [(mem_fatLinks.mp h).unique (mem_fatLinks.mp hmem)]

/-! ## The walk -/

/-- The sector that the loop goes on to. -/
def nextSector (data : Bytes) (sectorSize size : Nat) (fat : List (Nat × Nat)) (sector : Nat) :
    Option Nat :=
  (cfbSector data sectorSize size sector).bind fun _ => fat.lookup sector

/-- The names in a sector of the file. -/
def sectorNames (data : Bytes) (sectorSize sector : Nat) : List (List Char) :=
  cfbSectorNames (readAt data sectorSize (cfbSectorOffset sector sectorSize)) sectorSize

/-- The loop is a walk along the links, and it collects the names of the sectors on its way. -/
theorem cfbWalkFrom_eq (fat : List (Nat × Nat)) (room : Nat) (visited : List Nat)
    (names : List (List Char)) (sector : Nat) :
    cfbWalkFrom data sectorSize data.length fat room visited names sector =
      (follow Reserved (nextSector data sectorSize data.length fat) room visited sector).map fun path =>
        names ++ path.flatMap (sectorNames data sectorSize) := by
  induction room generalizing visited names sector with
  | zero =>
    unfold cfbWalkFrom
    split_ifs with hreserved hvisited
    · rw [follow_stop (show Reserved sector from hreserved)]
      simp
    · rw [follow_zero (show ¬ Reserved sector from hreserved)]
      rfl
    · rw [follow_zero (show ¬ Reserved sector from hreserved)]
      rfl
  | succ room ih =>
    unfold cfbWalkFrom
    split_ifs with hreserved hvisited
    · rw [follow_stop (show Reserved sector from hreserved)]
      simp
    · rw [follow_visited (show ¬ Reserved sector from hreserved) hvisited]
      rfl
    · rw [follow_succ (show ¬ Reserved sector from hreserved) hvisited]
      rcases hb : cfbSector data sectorSize data.length sector with _ | b
      · rw [nextSector, hb]
        rfl
      obtain ⟨-, rfl⟩ := cfbSector_eq_some.mp hb
      rcases hnext : fat.lookup sector with _ | next
      · rw [nextSector, hb, Option.bind_some, hnext]
        rfl
      rw [nextSector, hb, Option.bind_some, hnext]
      simp only [Option.bind_eq_bind, Option.bind_some, Option.map_map]
      rw [ih]
      congr 1
      funext path
      simp [sectorNames, List.append_assoc]

/-- The loop, with the sectors that it visits.

Source: `cfb.go` cfbWalkDirectory -/
def cfbWalkTraced (data : Bytes) (sectorSize size : Nat) (fat : List (Nat × Nat)) :
    Nat → List Nat → List (List Char) → Nat → List Nat × Option (List (List Char))
  | room, visited, names, sector =>
    if cfbSentinelThreshold ≤ sector then (visited, some names)
    else if sector ∈ visited then (visited, none)
    else
      match room with
      | 0 => (visited, none)
      | room + 1 =>
        if cfbSectorInBounds sector sectorSize size then
          match cfbSector data sectorSize size sector, fat.lookup sector with
          | some b, some next =>
            cfbWalkTraced data sectorSize size fat room (sector :: visited)
              (names ++ cfbSectorNames b sectorSize) next
          | _, _ => (sector :: visited, none)
        else (visited, none)

/-- The result is that of the loop. -/
theorem cfbWalkTraced_snd (size : Nat) (fat : List (Nat × Nat)) (room : Nat) (visited : List Nat)
    (names : List (List Char)) (sector : Nat) :
    (cfbWalkTraced data sectorSize size fat room visited names sector).2 =
      cfbWalkFrom data sectorSize size fat room visited names sector := by
  induction room generalizing visited names sector with
  | zero =>
    unfold cfbWalkTraced cfbWalkFrom
    split_ifs <;> rfl
  | succ room ih =>
    unfold cfbWalkTraced cfbWalkFrom
    split_ifs with hreserved hvisited hbounds
    · rfl
    · rfl
    · rcases cfbSector data sectorSize size sector with _ | b
      · rfl
      rcases fat.lookup sector with _ | next
      · rfl
      exact ih _ _ _
    · have hnone : cfbSector data sectorSize size sector = none := if_neg hbounds
      rw [hnone]
      rfl

/-- The loop visits no sector twice, and no more of them than there is room for. -/
theorem cfbWalkTraced_fst (data : Bytes) (sectorSize size : Nat) (fat : List (Nat × Nat)) (room : Nat)
    {visited : List Nat} (names : List (List Char)) (sector : Nat) (hnodup : visited.Nodup) :
    (cfbWalkTraced data sectorSize size fat room visited names sector).1.length ≤
        visited.length + room ∧
      (cfbWalkTraced data sectorSize size fat room visited names sector).1.Nodup := by
  induction room generalizing visited names sector with
  | zero =>
    unfold cfbWalkTraced
    split_ifs <;> exact ⟨Nat.le_refl _, hnodup⟩
  | succ room ih =>
    unfold cfbWalkTraced
    have hstay : visited.length ≤ visited.length + (room + 1) := Nat.le_add_right _ _
    split_ifs with hreserved hvisited hbounds
    · exact ⟨hstay, hnodup⟩
    · exact ⟨hstay, hnodup⟩
    · have hcons : (sector :: visited).Nodup := List.nodup_cons.mpr ⟨hvisited, hnodup⟩
      rcases cfbSector data sectorSize size sector with _ | b
      · exact ⟨by simp, hcons⟩
      rcases fat.lookup sector with _ | next
      · exact ⟨by simp, hcons⟩
      obtain ⟨hlen, hnodup'⟩ := ih (names ++ cfbSectorNames b sectorSize) next hcons
      refine ⟨hlen.trans_eq ?_, hnodup'⟩
      rw [List.length_cons, Nat.add_right_comm, Nat.add_assoc]
    · exact ⟨hstay, hnodup⟩

/-- The walk over the directory succeeds exactly on the chain, with the names on it. -/
theorem cfbWalkDirectory_eq_some {names : List (List Char)} :
    cfbWalkDirectory data (leAt data 48 4) sectorSize data.length (fatLinks data sectorSize) =
        some names ↔
      ∃ path, DirChain data sectorSize path ∧ names = path.flatMap (sectorNames data sectorSize) := by
  have hlink : ∀ x y, nextSector data sectorSize data.length (fatLinks data sectorSize) x = some y ↔
      (¬ Reserved x ∧ SectorInside data sectorSize x) ∧ FatLink data sectorSize x y := by
    intro x y
    unfold nextSector
    rw [Option.bind_eq_some_iff]
    constructor
    · rintro ⟨b, hb, hnext⟩
      exact ⟨(cfbSector_eq_some.mp hb).1, lookup_fatLinks.mp hnext⟩
    · rintro ⟨hinside, hnext⟩
      exact ⟨_, cfbSector_eq_some.mpr ⟨hinside, rfl⟩, lookup_fatLinks.mpr hnext⟩
  unfold cfbWalkDirectory
  rw [cfbWalkFrom_eq, Option.map_eq_some_iff]
  constructor
  · rintro ⟨path, hpath, rfl⟩
    obtain ⟨hfollows, hlen, hnodup, -⟩ := (follow_eq_some hlink).mp hpath
    obtain ⟨hfollows, hinside⟩ := chained_and.mp hfollows
    exact ⟨path, ⟨hfollows, fun sector hs => (hinside sector hs).2, hnodup, hlen⟩, by simp⟩
  · rintro ⟨path, hchain, rfl⟩
    refine ⟨path, (follow_eq_some hlink).mpr ⟨chained_and.mpr ⟨hchain.follows, ?_⟩, hchain.length_le,
      hchain.nodup, by simp⟩, by simp⟩
    intro sector hs
    exact ⟨not_stop_of_mem hchain.follows hs, hchain.inside sector hs⟩

/-! ## Names -/

/-- The name of an entry that is allocated and well formed. -/
theorem cfbEntryName_eq_some {entry : Bytes} {name : List Char} :
    cfbEntryName entry = some name ↔ EntryNamed entry name := by
  unfold cfbEntryName
  dsimp only
  constructor
  · intro h
    by_cases hfree : leAt entry 66 1 = 0
    · rw [if_pos hfree] at h
      exact absurd h (by simp)
    rw [if_neg hfree] at h
    by_cases hbad : leAt entry 64 2 < 2 ∨ cfbNameFieldSize < leAt entry 64 2 ∨ leAt entry 64 2 % 2 ≠ 0
    · rw [if_pos hbad] at h
      exact absurd h (by simp)
    · rw [if_neg hbad] at h
      exact ⟨hfree, by omega, (Option.some.inj h).symm⟩
  · rintro ⟨hallocated, hformed, rfl⟩
    rw [if_neg hallocated, if_neg (by omega)]
    rfl

/-- The names on the chain. -/
theorem mem_names {path : List Nat} {name : List Char} :
    name ∈ path.flatMap (sectorNames data sectorSize) ↔ NameOn data sectorSize path name := by
  have hentry : ∀ sector e, e < sectorSize / cfbEntrySize →
      ((readAt data sectorSize (cfbSectorOffset sector sectorSize)).drop (e * cfbEntrySize)).take
        cfbEntrySize =
        (data.drop (cfbSectorOffset sector sectorSize + e * cfbEntrySize)).take cfbEntrySize := by
    intro sector e he
    unfold cfbEntrySize at *
    unfold readAt
    rw [List.drop_take, List.take_take, List.drop_drop, Nat.min_eq_left (by omega)]
  rw [List.mem_flatMap]
  apply exists_congr
  intro sector
  apply and_congr_right
  intro _
  unfold sectorNames cfbSectorNames
  rw [List.mem_filterMap]
  constructor
  · rintro ⟨e, he, hname⟩
    have he := List.mem_range.mp he
    rw [hentry sector e he, cfbEntryName_eq_some] at hname
    exact ⟨e, he, hname⟩
  · rintro ⟨e, he, hname⟩
    refine ⟨e, List.mem_range.mpr he, ?_⟩
    rw [hentry sector e he, cfbEntryName_eq_some]
    exact hname

/-! ## The classes -/

/-- What is read within the file does not change if it is continued. -/
theorem readAt_append {data rest : Bytes} {n off : Nat} (h : off + n ≤ data.length) :
    readAt (data ++ rest) n off = readAt data n off := by
  unfold readAt
  rw [List.drop_append_of_le_length (by omega), List.take_append_of_le_length]
  rw [List.length_drop]
  omega

/-- A sector does not. -/
theorem cfbSector_append (data rest : Bytes) (sectorSize sector : Nat) :
    cfbSector (data ++ rest) sectorSize data.length sector =
      cfbSector data sectorSize data.length sector := by
  unfold cfbSector
  by_cases hbounds : cfbSectorInBounds sector sectorSize data.length = true
  · have hle : cfbSectorOffset sector sectorSize + sectorSize ≤ data.length := by
      unfold cfbSectorInBounds at hbounds
      rw [Bool.and_eq_true, decide_eq_true_eq, decide_eq_true_eq] at hbounds
      exact hbounds.2
    rw [if_pos hbounds, if_pos hbounds, readAt_append hle]
  · rw [if_neg hbounds, if_neg hbounds]

/-- The walk does not. -/
theorem cfbWalkFrom_append (data rest : Bytes) (sectorSize : Nat) (fat : List (Nat × Nat)) (room : Nat)
    (visited : List Nat) (names : List (List Char)) (sector : Nat) :
    cfbWalkFrom (data ++ rest) sectorSize data.length fat room visited names sector =
      cfbWalkFrom data sectorSize data.length fat room visited names sector := by
  induction room generalizing visited names sector with
  | zero =>
    unfold cfbWalkFrom
    rfl
  | succ room ih =>
    unfold cfbWalkFrom
    simp only [cfbSector_append, ih]

/-- The classification looks at nothing behind the end that it is given. -/
theorem classifyCFB_append (data rest : Bytes) :
    classifyCFB (data ++ rest) data.length = classifyCFB data data.length := by
  unfold classifyCFB
  by_cases hsize : data.length < cfbHeaderSize
  · rw [if_pos hsize, if_pos hsize]
  have hheader : readAt (data ++ rest) cfbHeaderSize 0 = readAt data cfbHeaderSize 0 :=
    readAt_append (by omega)
  have hslot : ∀ header sectorSize i, cfbFATSlot (data ++ rest) header sectorSize data.length i =
      cfbFATSlot data header sectorSize data.length i := by
    intro header sectorSize i
    unfold cfbFATSlot
    simp only [cfbSector_append]
  have hfat : ∀ header sectorSize, buildCFBFAT (data ++ rest) header sectorSize data.length =
      buildCFBFAT data header sectorSize data.length := by
    intro header sectorSize
    unfold buildCFBFAT
    rw [funext (hslot header sectorSize)]
  have hwalk : ∀ start sectorSize fat,
      cfbWalkDirectory (data ++ rest) start sectorSize data.length fat =
      cfbWalkDirectory data start sectorSize data.length fat := by
    intro start sectorSize fat
    exact cfbWalkFrom_append data rest sectorSize fat _ _ _ _
  rw [if_neg hsize, if_neg hsize, hheader]
  simp only [hfat, hwalk]

/-- What is classified: a file with a header that is read, with its table inside, and with this
chain. -/
structure CfbReadable (data : Bytes) (sectorSize : Nat) (path : List Nat) : Prop where
  header : CfbHeader data sectorSize
  fat : FatInside data sectorSize
  chain : DirChain data sectorSize path

/-- The header determines the size of the sectors. -/
theorem CfbHeader.unique {sectorSize' : Nat} (h : CfbHeader data sectorSize)
    (h' : CfbHeader data sectorSize') : sectorSize' = sectorSize := by
  have hsectors := h.sectors
  have hsectors' := h'.sectors
  omega

/-- The fields of the header as the classification reads them. -/
theorem header_fields (h : ¬ data.length < cfbHeaderSize) :
    (readAt data cfbHeaderSize 0).length = cfbHeaderSize ∧
      (readAt data cfbHeaderSize 0).take 8 = data.take 8 ∧
      leAt (readAt data cfbHeaderSize 0) 30 2 = leAt data 30 2 ∧
      leAt (readAt data cfbHeaderSize 0) 68 4 = leAt data 68 4 ∧
      leAt (readAt data cfbHeaderSize 0) 48 4 = leAt data 48 4 := by
  refine ⟨?_, ?_, leAt_header (by decide), leAt_header (by decide), leAt_header (by decide)⟩
  · unfold readAt
    rw [List.drop_zero, List.length_take]
    omega
  · unfold readAt
    rw [List.drop_zero, List.take_take]
    rfl

/-- A file whose header is not read is not classified. -/
theorem classifyCFB_of_not_header (h : ¬ ∃ sectorSize, CfbHeader data sectorSize) :
    classifyCFB data data.length = .unknown := by
  unfold classifyCFB
  by_cases hsize : data.length < cfbHeaderSize
  · exact if_pos hsize
  obtain ⟨hlen, hmagic, hshift, hdifat, -⟩ := header_fields hsize
  rw [if_neg hsize]
  dsimp only
  rw [if_neg (not_not.mpr hlen), hmagic, hshift, hdifat]
  by_cases hm : data.take 8 = oleCFBMagic
  swap
  · exact if_pos hm
  rw [if_neg (not_not.mpr hm)]
  by_cases hs : leAt data 30 2 ≠ 9 ∧ leAt data 30 2 ≠ 12
  · exact if_pos hs
  rw [if_neg hs]
  by_cases hd : leAt data 68 4 = cfbEndOfChain
  swap
  · exact if_pos hd
  by_cases hnine : leAt data 30 2 = 9
  · exact absurd ⟨512, Nat.le_of_not_lt hsize, hm, .inl ⟨hnine, rfl⟩, hd⟩ h
  · exact absurd ⟨4096, Nat.le_of_not_lt hsize, hm, .inr ⟨by omega, rfl⟩, hd⟩ h

/-- The classification behind the header. -/
theorem classifyCFB_of_header (h : CfbHeader data sectorSize) :
    classifyCFB data data.length =
      ((buildCFBFAT data (readAt data cfbHeaderSize 0) sectorSize data.length).bind fun fat =>
        cfbWalkDirectory data (leAt data 48 4) sectorSize data.length fat).elim .unknown
          classifyCFBNames := by
  have hsize : ¬ data.length < cfbHeaderSize := Nat.not_lt_of_le h.size
  obtain ⟨hlen, hmagic, hshift, hdifat, hstart⟩ := header_fields hsize
  have hsectors := h.sectors
  have hsector : 1 <<< leAt data 30 2 = sectorSize := by
    rcases hsectors with ⟨hs, rfl⟩ | ⟨hs, rfl⟩ <;> rw [hs] <;> rfl
  unfold classifyCFB
  rw [if_neg hsize]
  dsimp only
  rw [if_neg (not_not.mpr hlen), hmagic, hshift, hdifat, hstart, if_neg (not_not.mpr h.magic),
    if_neg (by omega), if_neg (not_not.mpr h.complete), hsector]
  rcases buildCFBFAT data (readAt data cfbHeaderSize 0) sectorSize data.length with _ | fat
  · rfl
  rcases hwalk : cfbWalkDirectory data (leAt data 48 4) sectorSize data.length fat with _ | names
  · simp only [hwalk, Option.bind_some, Option.elim_none]
  · simp only [hwalk, Option.bind_some, Option.elim_some]

/-- The classification is that of the names on the chain. -/
theorem classifyCFB_of_readable {path : List Nat} (h : CfbReadable data sectorSize path) :
    classifyCFB data data.length = classifyCFBNames (path.flatMap (sectorNames data sectorSize)) := by
  rw [classifyCFB_of_header h.header, buildCFBFAT_eq_some.mpr ⟨h.fat, rfl⟩, Option.bind_some,
    cfbWalkDirectory_eq_some.mpr ⟨path, h.chain, rfl⟩, Option.elim_some]

/-- A file that is classified has a chain that can be read. -/
theorem readable_of_classified (h : classifyCFB data data.length ≠ .unknown) :
    ∃ sectorSize path, CfbReadable data sectorSize path := by
  by_cases hheader : ∃ sectorSize, CfbHeader data sectorSize
  swap
  · exact absurd (classifyCFB_of_not_header hheader) h
  obtain ⟨sectorSize, hheader⟩ := hheader
  rw [classifyCFB_of_header hheader] at h
  rcases hfat : buildCFBFAT data (readAt data cfbHeaderSize 0) sectorSize data.length with _ | fat
  · rw [hfat] at h
    exact absurd rfl h
  obtain ⟨hinside, rfl⟩ := buildCFBFAT_eq_some.mp hfat
  rw [hfat, Option.bind_some] at h
  rcases hwalk : cfbWalkDirectory data (leAt data 48 4) sectorSize data.length
    (fatLinks data sectorSize) with _ | names
  · rw [hwalk] at h
    exact absurd rfl h
  · obtain ⟨path, hchain, -⟩ := cfbWalkDirectory_eq_some.mp hwalk
    exact ⟨sectorSize, path, hheader, hinside, hchain⟩

/-- The classes of a set of names. -/
theorem classifyCFBNames_iff (names : List (List Char)) :
    (classifyCFBNames names = .encrypted ↔ ∃ name ∈ names, name ∈ cfbEncryptedNames) ∧
      (classifyCFBNames names = .legacy ↔
        (¬ ∃ name ∈ names, name ∈ cfbEncryptedNames) ∧ ∃ name ∈ names, name ∈ cfbLegacyNames) := by
  have hany : ∀ l : List (List Char), names.any l.contains = true ↔ ∃ name ∈ names, name ∈ l := by
    intro l
    rw [List.any_eq_true]
    apply exists_congr
    intro name
    rw [List.contains_iff_mem]
  rw [← hany, ← hany]
  unfold classifyCFBNames
  by_cases henc : names.any cfbEncryptedNames.contains = true
  · rw [if_pos henc]
    simp [henc]
  · rw [if_neg henc]
    by_cases hleg : names.any cfbLegacyNames.contains = true
    · rw [if_pos hleg]
      exact ⟨iff_of_false (by decide) henc, iff_of_true rfl ⟨henc, hleg⟩⟩
    · rw [if_neg hleg]
      exact ⟨iff_of_false (by decide) henc, iff_of_false (by decide) fun h => hleg h.2⟩

/-- **The classification** uses no byte behind the end, visits at most 4096 sectors of the
directory, and finds exactly the encrypted and the legacy files whose directory chain can be read to
its end. -/
theorem classifyCFB_iff (data : Bytes) :
    (∀ rest, classifyCFB (data ++ rest) data.length = classifyCFB data data.length) ∧
      (∀ sectorSize size fat start,
        (cfbWalkTraced data sectorSize size fat cfbMaxDirSectors [] [] start).2 =
            cfbWalkDirectory data start sectorSize size fat ∧
          (cfbWalkTraced data sectorSize size fat cfbMaxDirSectors [] [] start).1.length ≤ 4096 ∧
          (cfbWalkTraced data sectorSize size fat cfbMaxDirSectors [] [] start).1.Nodup) ∧
      (classifyCFB data data.length = .encrypted ↔
        ∃ sectorSize path, CfbReadable data sectorSize path ∧
          ∃ name ∈ cfbEncryptedNames, NameOn data sectorSize path name) ∧
      (classifyCFB data data.length = .legacy ↔
        ∃ sectorSize path, CfbReadable data sectorSize path ∧
          (¬ ∃ name ∈ cfbEncryptedNames, NameOn data sectorSize path name) ∧
          ∃ name ∈ cfbLegacyNames, NameOn data sectorSize path name) := by
  have hnames : ∀ {sectorSize path} (l : List (List Char)),
      (∃ name ∈ path.flatMap (sectorNames data sectorSize), name ∈ l) ↔
        ∃ name ∈ l, NameOn data sectorSize path name := by
    intro sectorSize path l
    constructor
    · rintro ⟨name, hname, hl⟩
      exact ⟨name, hl, mem_names.mp hname⟩
    · rintro ⟨name, hl, hname⟩
      exact ⟨name, mem_names.mpr hname, hl⟩
  refine ⟨classifyCFB_append data, ?_, ?_, ?_⟩
  · intro sectorSize size fat start
    obtain ⟨hlen, hnodup⟩ :=
      cfbWalkTraced_fst data sectorSize size fat cfbMaxDirSectors [] start List.nodup_nil
    exact ⟨cfbWalkTraced_snd size fat _ _ _ _, by simpa [cfbMaxDirSectors] using hlen, hnodup⟩
  · constructor
    · intro h
      obtain ⟨sectorSize, path, hreadable⟩ := readable_of_classified (by rw [h]; decide)
      rw [classifyCFB_of_readable hreadable, (classifyCFBNames_iff _).1, hnames] at h
      exact ⟨sectorSize, path, hreadable, h⟩
    · rintro ⟨sectorSize, path, hreadable, h⟩
      rw [classifyCFB_of_readable hreadable, (classifyCFBNames_iff _).1, hnames]
      exact h
  · constructor
    · intro h
      obtain ⟨sectorSize, path, hreadable⟩ := readable_of_classified (by rw [h]; decide)
      rw [classifyCFB_of_readable hreadable, (classifyCFBNames_iff _).2, hnames, hnames] at h
      exact ⟨sectorSize, path, hreadable, h⟩
    · rintro ⟨sectorSize, path, hreadable, h⟩
      rw [classifyCFB_of_readable hreadable, (classifyCFBNames_iff _).2, hnames, hnames]
      exact h

end OctoConv
