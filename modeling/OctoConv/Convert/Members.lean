import OctoConv.Api.Options

/-!
# Which member sets an option

The strictness walk compares the keys of an object as they are, and the struct decoder matches them
with the field names up to case. Two members may therefore set one field, and then the later one wins.

Source: `internal/convert/opts.go` checkStrictObject and the Parse functions of
`internal/convert/opts.go`, `htmlopts.go`, `audioopts.go`, `avopts.go`.

## Main results

* `decodes_perm` — members of independent fields can be decoded in any order.
* `unambiguous_iff` — the members of an accepted text set different fields, and can be reordered,
  exactly if no two keys fold to the same name.
-/

namespace OctoConv

open Conc.JsonText (Value parse print)

/-! ## Fields that commute -/

section

variable {α : Type}

/-- Assigning to the field either fails, or applies one of the updates `U`, whatever the struct is. -/
def Field.Updates (f : Field α) (U : (α → α) → Prop) : Prop :=
  ∀ v, (∃ e, ∀ o, f.assign v o = .error e) ∨ ∃ u, U u ∧ ∀ o, f.assign v o = .ok (u o)

/-- The updates of a setter: leave the field, or set it. -/
def Sets {β : Type} (set : β → α → α) (u : α → α) : Prop := u = id ∨ ∃ b, u = set b

/-- A text field sets its text. -/
theorem updates_string (name : String) (set : String → α → α) :
    (stringField name set).Updates (Sets set) := by
  intro v
  cases v with
  | null => exact .inr ⟨id, .inl rfl, fun o => rfl⟩
  | string s => exact .inr ⟨set s, .inr ⟨s, rfl⟩, fun o => rfl⟩
  | _ => exact .inl ⟨_, fun o => rfl⟩

/-- A flag sets its value. -/
theorem updates_bool (name : String) (set : Bool → α → α) :
    (boolField name set).Updates (Sets set) := by
  intro v
  cases v with
  | null => exact .inr ⟨id, .inl rfl, fun o => rfl⟩
  | bool b => exact .inr ⟨set b, .inr ⟨b, rfl⟩, fun o => rfl⟩
  | _ => exact .inl ⟨_, fun o => rfl⟩

/-- A number sets its value. -/
theorem updates_int (name : String) (set : Int → α → α) :
    (intField name set).Updates (Sets set) := by
  intro v
  cases v with
  | null => exact .inr ⟨id, .inl rfl, fun o => rfl⟩
  | number t =>
    rcases ht : atoi t with _ | n
    · exact .inl ⟨_, fun o => by simp only [intField, ht]; rfl⟩
    · exact .inr ⟨set n, .inr ⟨n, rfl⟩, fun o => by simp only [intField, ht]⟩
  | _ => exact .inl ⟨_, fun o => rfl⟩

/-- An optional number sets its value. -/
theorem updates_intPtr (name : String) (set : Option Int → α → α) :
    (intPtrField name set).Updates (Sets set) := by
  intro v
  cases v with
  | null => exact .inr ⟨set none, .inr ⟨none, rfl⟩, fun o => rfl⟩
  | number t =>
    rcases ht : atoi t with _ | n
    · exact .inl ⟨_, fun o => by simp only [intPtrField, ht]; rfl⟩
    · exact .inr ⟨set (some n), .inr ⟨some n, rfl⟩, fun o => by simp only [intPtrField, ht]⟩
  | _ => exact .inl ⟨_, fun o => rfl⟩

/-- An optional float sets its value. -/
theorem updates_floatPtr (codec : FloatCodec) (name : String) (set : Option Rat → α → α) :
    (floatPtrField codec name set).Updates (Sets set) := by
  intro v
  cases v with
  | null => exact .inr ⟨set none, .inr ⟨none, rfl⟩, fun o => rfl⟩
  | number t =>
    rcases ht : codec.parse t with _ | x
    · exact .inl ⟨_, fun o => by simp only [floatPtrField, ht]; rfl⟩
    · exact .inr ⟨set (some x), .inr ⟨some x, rfl⟩, fun o => by simp only [floatPtrField, ht]⟩
  | _ => exact .inl ⟨_, fun o => rfl⟩

/-- Two fields that can be assigned in either order. -/
def Independent (f g : Field α) : Prop :=
  ∀ v w o o₁ o₂, f.assign v o = .ok o₁ → g.assign w o₁ = .ok o₂ →
    ∃ o₁', g.assign w o = .ok o₁' ∧ f.assign v o₁' = .ok o₂

/-- Fields whose updates commute are independent. -/
theorem independent_of_commute {f g : Field α} {U W : (α → α) → Prop} (hf : f.Updates U)
    (hg : g.Updates W) (hcomm : ∀ u w, U u → W w → ∀ o, w (u o) = u (w o)) : Independent f g := by
  intro v w o o₁ o₂ h₁ h₂
  rcases hf v with ⟨e, he⟩ | ⟨u, hu, hfv⟩
  · rw [he] at h₁
    exact absurd h₁ (by simp)
  rcases hg w with ⟨e, he⟩ | ⟨u', hu', hgw⟩
  · rw [he] at h₂
    exact absurd h₂ (by simp)
  refine ⟨u' o, hgw o, ?_⟩
  rw [hfv] at h₁
  obtain rfl : u o = o₁ := by simpa using h₁
  rw [hgw] at h₂
  obtain rfl : u' (u o) = o₂ := by simpa using h₂
  rw [hfv, hcomm u u' hu hu']

/-- Fields that set different things are independent. -/
theorem independent_of_sets {β γ : Type} {f g : Field α} {set : β → α → α} {set' : γ → α → α}
    (hf : f.Updates (Sets set)) (hg : g.Updates (Sets set'))
    (hcomm : ∀ b c o, set' c (set b o) = set b (set' c o)) : Independent f g := by
  apply independent_of_commute hf hg
  rintro u w (rfl | ⟨b, rfl⟩) (rfl | ⟨c, rfl⟩) o
  · rfl
  · rfl
  · rfl
  · exact hcomm b c o

end

/-! ## Reordering members -/

section

variable {α : Type} {struct : String} {fields : List (Field α)}

/-- The members set different fields. -/
def Apart (fields : List (Field α)) (m m' : String × Value) : Prop :=
  ∀ f g, findField fields m.1 = some f → findField fields m'.1 = some g → f.name ≠ g.name

/-- Members that set different, independent fields can be decoded in any order. -/
theorem decodes_perm
    (hind : ∀ f ∈ fields, ∀ g ∈ fields, f.name ≠ g.name → Independent f g)
    {ms ms' : List (String × Value)} (hperm : ms.Perm ms') (hapart : ms.Pairwise (Apart fields))
    {o o' : α} (h : Decodes struct fields o ms o') : Decodes struct fields o ms' o' := by
  have hsymm : ∀ m m', Apart fields m m' → Apart fields m' m :=
    fun m m' hmm f g hf hg => (hmm g f hg hf).symm
  induction hperm generalizing o with
  | nil => exact h
  | cons m _ ih =>
    obtain ⟨o₁, hm, hrest⟩ := decodes_cons.mp h
    exact decodes_cons.mpr ⟨o₁, hm, ih (List.pairwise_cons.mp hapart).2 hrest⟩
  | swap m m' ms =>
    -- the text has m' first; after the swap m comes first
    obtain ⟨o₁, hm', hrest⟩ := decodes_cons.mp h
    obtain ⟨o₂, hm, hrest⟩ := decodes_cons.mp hrest
    obtain ⟨f, hf, ha⟩ := decodeMember_ok hm'
    obtain ⟨g, hg, hb⟩ := decodeMember_ok hm
    have hne : f.name ≠ g.name :=
      (List.pairwise_cons.mp hapart).1 m (by simp) f g hf hg
    obtain ⟨o₃, hb', ha'⟩ :=
      hind f (findField_mem hf) g (findField_mem hg) hne _ _ _ _ _ ha hb
    exact decodes_cons.mpr ⟨o₃, decodeMember_of_assign hg hb',
      decodes_cons.mpr ⟨o₂, decodeMember_of_assign hf ha', hrest⟩⟩
  | trans h₁ _ ih₁ ih₂ =>
    exact ih₂ (h₁.pairwise hapart fun hmm => hsymm _ _ hmm) (ih₁ hapart h)

end

/-! ## Keys that fold to one name -/

section

variable {α : Type}

/-- The members of an object that set the field of this name. -/
def setters (fields : List (Field α)) (ms : List (String × Value)) (name : String) :
    List (String × Value) :=
  ms.filter fun m => (findField fields m.1).map Field.name = some name

/-- Every field is set by at most one member, and the members can be reordered. -/
def Unambiguous (s : Schema α) (raw : String) : Prop :=
  ∃ ms, parse raw = some (.object ms) ∧
    (∀ f ∈ s.fields, (setters s.fields ms f.name).length ≤ 1) ∧
    ∀ raw' ms', parse raw' = some (.object ms') → ms'.Perm ms → s.parseOpts raw' = s.parseOpts raw

/-- No two keys of the object are equal up to case. -/
def NoTwins (raw : String) : Prop :=
  ∀ ms, parse raw = some (.object ms) → (ms.map fun m => foldName m.1).Nodup

/-- The keys of a printed object decide. -/
theorem noTwins_print (ms : List (String × Value)) {raw : String} (hraw : print (.object ms) = raw)
    (hvalid : Value.Valid (.object ms)) : NoTwins raw ↔ (ms.map fun m => foldName m.1).Nodup := by
  have hparse : parse raw = some (.object ms) := by rw [← hraw, Conc.JsonText.parse_print hvalid]
  constructor
  · intro h
    exact h ms hparse
  · intro h ms' hparse'
    have hms : ms = ms' := Value.object.inj (Option.some.inj (hparse.symm.trans hparse'))
    rw [← hms]
    exact h

/-- A schema whose fields have different folded names and can be assigned in any order. -/
structure Schema.Regular (s : Schema α) : Prop where
  names : (s.fields.map fun f => foldName f.name).Nodup
  independent : ∀ f ∈ s.fields, ∀ g ∈ s.fields, f.name ≠ g.name → Independent f g

/-- Fields of a regular schema with names that fold alike are the same. -/
theorem Schema.Regular.name_inj {s : Schema α} (hs : s.Regular) {f g : Field α}
    (hf : f ∈ s.fields) (hg : g ∈ s.fields) (h : foldName f.name = foldName g.name) :
    f.name = g.name := by
  rw [List.inj_on_of_nodup_map hs.names hf hg h]

/-- An accepted text is one object, whose different keys decode to the struct. -/
theorem nodup_of_firstDuplicate {seen keys : List String} (hseen : seen.Nodup)
    (h : firstDuplicate seen keys = none) : (seen ++ keys).Nodup := by
  induction keys generalizing seen with
  | nil => simpa using hseen
  | cons k keys ih =>
    rw [firstDuplicate] at h
    split at h
    · exact absurd h (by simp)
    rename_i hk
    have hperm : (seen ++ k :: keys).Perm (k :: seen ++ keys) := List.perm_middle
    exact hperm.nodup_iff.mpr (ih (List.nodup_cons.mpr ⟨hk, hseen⟩) h)

/-- Every member of a decoded object has a field. -/
theorem Decodes.field {struct : String} {fields : List (Field α)} {o o' : α}
    {ms : List (String × Value)} (h : Decodes struct fields o ms o') :
    ∀ m ∈ ms, ∃ f, findField fields m.1 = some f := by
  induction ms generalizing o with
  | nil => simp
  | cons m ms ih =>
    obtain ⟨o₁, hm, hrest⟩ := decodes_cons.mp h
    intro m' hm'
    rcases List.mem_cons.mp hm' with rfl | hm'
    · obtain ⟨f, hf, -⟩ := decodeMember_ok hm
      exact ⟨f, hf⟩
    · exact ih hrest m' hm'

/-- Members whose keys fold to different names set different fields. -/
theorem apart_of_nodup {fields : List (Field α)} {ms : List (String × Value)}
    (h : (ms.map fun m => foldName m.1).Nodup) : ms.Pairwise (Apart fields) := by
  have hne : ms.Pairwise fun m m' => foldName m.1 ≠ foldName m'.1 := List.pairwise_map.mp h
  refine hne.imp ?_
  intro m m' hmm f g hf hg hname
  apply hmm
  rw [← foldName_of_findField hf, ← foldName_of_findField hg, hname]

/-- A further member sets no field less often. -/
theorem setters_cons (fields : List (Field α)) (m : String × Value) (ms : List (String × Value))
    (name : String) : (setters fields ms name).length ≤ (setters fields (m :: ms) name).length := by
  unfold setters
  exact ((List.sublist_cons_self m ms).filter _).length_le

/-- If every field has at most one setter, the keys fold to different names. -/
theorem nodup_of_setters {s : Schema α} (hs : s.Regular) {ms : List (String × Value)}
    (hfield : ∀ m ∈ ms, ∃ f, findField s.fields m.1 = some f)
    (hone : ∀ f ∈ s.fields, (setters s.fields ms f.name).length ≤ 1) :
    (ms.map fun m => foldName m.1).Nodup := by
  induction ms with
  | nil => simp
  | cons m ms ih =>
    rw [List.map_cons, List.nodup_cons]
    constructor
    · intro hmem
      obtain ⟨m', hm', hfold⟩ := List.mem_map.mp hmem
      obtain ⟨f, hf⟩ := hfield m (by simp)
      obtain ⟨g, hg⟩ := hfield m' (by simp [hm'])
      have hname : g.name = f.name := by
        apply hs.name_inj (findField_mem hg) (findField_mem hf)
        rw [foldName_of_findField hf, foldName_of_findField hg, hfold]
      -- both m and m' set f
      have hset : setters s.fields (m :: ms) f.name = m :: setters s.fields ms f.name := by
        unfold setters
        rw [List.filter_cons_of_pos]
        simp [hf]
      have hmem' : m' ∈ setters s.fields ms f.name := by
        unfold setters
        rw [List.mem_filter]
        exact ⟨hm', by simp [hg, hname]⟩
      have hlen := hone f (findField_mem hf)
      rw [hset, List.length_cons] at hlen
      have hpos := List.length_pos_of_mem hmem'
      omega
    · apply ih
      · intro m' hm'
        exact hfield m' (by simp [hm'])
      · intro f hf
        exact (setters_cons s.fields m ms f.name).trans (hone f hf)

/-- If the keys fold to different names, every field has at most one setter. -/
theorem setters_of_nodup {fields : List (Field α)} {ms : List (String × Value)}
    (h : (ms.map fun m => foldName m.1).Nodup) (name : String) :
    (setters fields ms name).length ≤ 1 := by
  induction ms with
  | nil => simp [setters]
  | cons m ms ih =>
    rw [List.map_cons, List.nodup_cons] at h
    by_cases hm : (findField fields m.1).map Field.name = some name
    · have hnil : setters fields ms name = [] := by
        unfold setters
        rw [List.filter_eq_nil_iff]
        intro m' hm' hname
        obtain ⟨f, hf, hfn⟩ := Option.map_eq_some_iff.mp hm
        obtain ⟨g, hg, hgn⟩ := Option.map_eq_some_iff.mp (of_decide_eq_true hname)
        apply h.1
        refine List.mem_map.mpr ⟨m', hm', ?_⟩
        rw [← foldName_of_findField hf, ← foldName_of_findField hg, hfn, hgn]
      have hset : setters fields (m :: ms) name = m :: setters fields ms name := by
        unfold setters
        rw [List.filter_cons_of_pos]
        simpa using hm
      rw [hset, hnil]
      simp
    · have hset : setters fields (m :: ms) name = setters fields ms name := by
        unfold setters
        rw [List.filter_cons_of_neg]
        simpa using hm
      rw [hset]
      exact ih h.2

/-- The members of an accepted text set different fields and can be reordered, exactly if no two keys
are equal up to case. -/
theorem unambiguous_iff {s : Schema α} (hs : s.Regular) {raw : String} {o : α}
    (h : s.parseOpts raw = .ok o) : Unambiguous s raw ↔ NoTwins raw := by
  obtain ⟨ms, hparse, hdup, hdecode, hcheck⟩ := Schema.parseOpts_object h
  constructor
  · rintro ⟨ms₁, hms₁, hone, -⟩ ms₂ hms₂
    have heq : ms₁ = ms₂ := by
      rw [hms₁] at hms₂
      simpa using hms₂
    have hms : ms₁ = ms := by
      rw [hms₁] at hparse
      simpa using hparse
    rw [← heq]
    exact nodup_of_setters hs (hms ▸ hdecode.field) hone
  · intro htwins
    have hnodup := htwins ms hparse
    refine ⟨ms, hparse, fun f _ => setters_of_nodup hnodup f.name, ?_⟩
    intro raw' ms' hparse' hperm
    have hkeys : (ms'.map Prod.fst).Nodup := by
      have hms : (ms.map Prod.fst).Nodup := by
        have := nodup_of_firstDuplicate List.nodup_nil hdup
        simpa using this
      exact (hperm.map Prod.fst).nodup_iff.mpr hms
    rw [h]
    refine Schema.parseOpts_of_object hparse' (firstDuplicate_of_nodup (by simpa using hkeys)) ?_ hcheck
    exact decodes_perm hs.independent hperm.symm (apart_of_nodup hnodup) hdecode

end

/-! ## The four schemas -/

/-- The document options are regular. -/
theorem regular_doc : docSchema.Regular := by
  constructor
  · decide
  · intro f hf g hg hne
    simp only [docSchema, List.mem_cons, List.not_mem_nil, or_false] at hf hg
    subst hf hg
    exact absurd rfl hne

/-- The audio options are regular. -/
theorem regular_audio : audioSchema.Regular := by
  constructor
  · decide
  · intro f hf g hg hne
    simp only [audioSchema, List.mem_cons, List.not_mem_nil, or_false] at hf hg
    rcases hf with rfl | rfl <;> rcases hg with rfl | rfl
    · exact absurd rfl hne
    · exact independent_of_sets (updates_string _ _) (updates_bool _ _) fun _ _ _ => rfl
    · exact independent_of_sets (updates_bool _ _) (updates_string _ _) fun _ _ _ => rfl
    · exact absurd rfl hne

/-- The html options are regular. -/
theorem regular_html : htmlSchema.Regular := by
  have hpage := updates_string "page_size" fun s (o : HTMLOpts) => { o with pageSize := s }
  have hmargin := updates_intPtr "margin_mm" fun n (o : HTMLOpts) => { o with marginMM := n }
  have hlandscape := updates_bool "landscape" fun b (o : HTMLOpts) => { o with landscape := b }
  have hprint := updates_bool "print_background" fun b (o : HTMLOpts) =>
    { o with printBackground := b }
  constructor
  · decide
  · intro f hf g hg hne
    simp only [htmlSchema, List.mem_cons, List.not_mem_nil, or_false] at hf hg
    rcases hf with rfl | rfl | rfl | rfl <;> rcases hg with rfl | rfl | rfl | rfl
    · exact absurd rfl hne
    · exact independent_of_sets hpage hmargin fun _ _ _ => rfl
    · exact independent_of_sets hpage hlandscape fun _ _ _ => rfl
    · exact independent_of_sets hpage hprint fun _ _ _ => rfl
    · exact independent_of_sets hmargin hpage fun _ _ _ => rfl
    · exact absurd rfl hne
    · exact independent_of_sets hmargin hlandscape fun _ _ _ => rfl
    · exact independent_of_sets hmargin hprint fun _ _ _ => rfl
    · exact independent_of_sets hlandscape hpage fun _ _ _ => rfl
    · exact independent_of_sets hlandscape hmargin fun _ _ _ => rfl
    · exact absurd rfl hne
    · exact independent_of_sets hlandscape hprint fun _ _ _ => rfl
    · exact independent_of_sets hprint hpage fun _ _ _ => rfl
    · exact independent_of_sets hprint hmargin fun _ _ _ => rfl
    · exact independent_of_sets hprint hlandscape fun _ _ _ => rfl
    · exact absurd rfl hne

/-- The av options are regular. -/
theorem regular_av (codec : FloatCodec) : (avSchema codec).Regular := by
  have htime := updates_floatPtr codec "timecode" fun x (o : AVOpts) => { o with timecode := x }
  have hheight := updates_int "resolution_height" fun n (o : AVOpts) =>
    { o with resolutionHeight := n }
  have hcodec := updates_string "codec" fun s (o : AVOpts) => { o with codec := s }
  constructor
  · change (["timecode", "resolution_height", "codec"].map foldName).Nodup
    decide
  · intro f hf g hg hne
    simp only [avSchema, List.mem_cons, List.not_mem_nil, or_false] at hf hg
    rcases hf with rfl | rfl | rfl <;> rcases hg with rfl | rfl | rfl
    · exact absurd rfl hne
    · exact independent_of_sets htime hheight fun _ _ _ => rfl
    · exact independent_of_sets htime hcodec fun _ _ _ => rfl
    · exact independent_of_sets hheight htime fun _ _ _ => rfl
    · exact absurd rfl hne
    · exact independent_of_sets hheight hcodec fun _ _ _ => rfl
    · exact independent_of_sets hcodec htime fun _ _ _ => rfl
    · exact independent_of_sets hcodec hheight fun _ _ _ => rfl
    · exact absurd rfl hne

/-- Whatever text one of the four parsers accepts, its members set different fields and can be
reordered exactly if no two of its keys are equal up to case. -/
theorem accepted_unambiguous_iff (codec : FloatCodec) (raw : String) :
    (∀ o, parseDocOpts raw = .ok o → (Unambiguous docSchema raw ↔ NoTwins raw)) ∧
      (∀ o, parseHTMLOpts raw = .ok o → (Unambiguous htmlSchema raw ↔ NoTwins raw)) ∧
      (∀ o, parseAudioOpts raw = .ok o → (Unambiguous audioSchema raw ↔ NoTwins raw)) ∧
      ∀ o, parseAVOpts codec raw = .ok o → (Unambiguous (avSchema codec) raw ↔ NoTwins raw) :=
  ⟨fun _ h => unambiguous_iff regular_doc h, fun _ h => unambiguous_iff regular_html h,
    fun _ h => unambiguous_iff regular_audio h, fun _ h => unambiguous_iff (regular_av codec) h⟩

/-- Accepted objects of two and three members, for each parser: one with a key in two spellings, and
three with different keys. -/
theorem accepted_unambiguous_iff_members :
    ¬ Unambiguous docSchema "\x7b\"pdf_profile\":\"\",\"PDF_PROFILE\":\"pdf/a-2b\"\x7d" ∧
      Unambiguous htmlSchema "\x7b\"page_size\":\"a3\",\"margin_mm\":5,\"landscape\":true\x7d" ∧
      Unambiguous audioSchema "\x7b\"translate\":true,\"language\":\"ru\"\x7d" ∧
      Unambiguous (avSchema Api.exampleCodec)
        "\x7b\"codec\":\"hevc\",\"timecode\":12.5,\"resolution_height\":720\x7d" := by
  have hdoc := (accepted_unambiguous_iff Api.exampleCodec
    "\x7b\"pdf_profile\":\"\",\"PDF_PROFILE\":\"pdf/a-2b\"\x7d").1 ⟨pdfProfileA2b⟩
      (by decide +kernel)
  have hhtml := (accepted_unambiguous_iff Api.exampleCodec
    "\x7b\"page_size\":\"a3\",\"margin_mm\":5,\"landscape\":true\x7d").2.1
      ⟨"a3", some 5, true, false⟩ (by decide +kernel)
  have haudio := (accepted_unambiguous_iff Api.exampleCodec
    "\x7b\"translate\":true,\"language\":\"ru\"\x7d").2.2.1 ⟨"ru", true⟩ (by decide +kernel)
  have hav := (accepted_unambiguous_iff Api.exampleCodec
    "\x7b\"codec\":\"hevc\",\"timecode\":12.5,\"resolution_height\":720\x7d").2.2.2
      ⟨some Api.twelveAndHalf, 720, "hevc"⟩ (by decide +kernel)
  rw [hdoc, hhtml, haudio, hav,
    noTwins_print [("pdf_profile", .string ""), ("PDF_PROFILE", .string "pdf/a-2b")]
      (by decide +kernel) ⟨trivial, trivial, trivial⟩,
    noTwins_print [("page_size", .string "a3"), ("margin_mm", .number "5"),
      ("landscape", .bool true)] (by decide +kernel)
      ⟨trivial, show Conc.JsonText.isNumber _ = true by decide, trivial, trivial⟩,
    noTwins_print [("translate", .bool true), ("language", .string "ru")]
      (by decide +kernel) ⟨trivial, trivial, trivial⟩,
    noTwins_print [("codec", .string "hevc"), ("timecode", .number "12.5"),
      ("resolution_height", .number "720")] (by decide +kernel)
      ⟨trivial, show Conc.JsonText.isNumber _ = true by decide,
        show Conc.JsonText.isNumber _ = true by decide, trivial⟩]
  decide +kernel

/-- Two spellings of one key are both accepted, and the later one wins. -/
theorem twins_accepted :
    parseAudioOpts "\x7b\"language\":\"en\",\"LANGUAGE\":\"de\"\x7d" = .ok ⟨"de", false⟩ ∧
      parseAudioOpts "\x7b\"LANGUAGE\":\"de\",\"language\":\"en\"\x7d" = .ok ⟨"en", false⟩ ∧
        ¬ Unambiguous audioSchema "\x7b\"language\":\"en\",\"LANGUAGE\":\"de\"\x7d" := by
  have hde : parseAudioOpts "\x7b\"language\":\"en\",\"LANGUAGE\":\"de\"\x7d" = .ok ⟨"de", false⟩ := by
    decide +kernel
  have hen : parseAudioOpts "\x7b\"LANGUAGE\":\"de\",\"language\":\"en\"\x7d" = .ok ⟨"en", false⟩ := by
    decide +kernel
  refine ⟨hde, hen, ?_⟩
  rintro ⟨ms, hms, -, hreorder⟩
  have htext : print (.object [("language", .string "en"), ("LANGUAGE", .string "de")]) =
      "\x7b\"language\":\"en\",\"LANGUAGE\":\"de\"\x7d" := by decide +kernel
  have htext' : print (.object [("LANGUAGE", .string "de"), ("language", .string "en")]) =
      "\x7b\"LANGUAGE\":\"de\",\"language\":\"en\"\x7d" := by decide +kernel
  have hvalid (k l a b : String) : Value.Valid (.object [(k, .string a), (l, .string b)]) :=
    ⟨trivial, trivial, trivial⟩
  rw [← htext, Conc.JsonText.parse_print (hvalid _ _ _ _)] at hms
  obtain rfl : [("language", .string "en"), ("LANGUAGE", .string "de")] = ms := by
    simpa using hms
  have hparse := Conc.JsonText.parse_print (hvalid "LANGUAGE" "language" "de" "en")
  rw [htext'] at hparse
  have hsame := hreorder _ _ hparse (List.Perm.swap _ _ _)
  have hdiff : (Except.ok ⟨"en", false⟩ : Except GoError AudioOpts) = .ok ⟨"de", false⟩ :=
    hen.symm.trans (hsame.trans hde)
  exact absurd hdiff (by decide)

end OctoConv
