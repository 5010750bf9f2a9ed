import OctoConv.Lib.Bytes

/-!
# Readers

A reader hands out its bytes in portions: an open file from its cursor on, in portions that nobody
controls; a buffer; two readers one after the other. Reading changes the reader, so each read
returns what the reader has become.

## Main results

* `Reader.read_spec` — a read takes a beginning of what the reader has left.
* `Reader.readFull_spec` — reading a number of bytes takes that many, or all that are left.
* `Reader.yields_content` — whoever reads to the end gets exactly what the reader has left.
-/

namespace Conc

/-! ## Files and readers -/

/-- How a read ends. -/
inductive ReadEnd
  | more
  | eof
  | failed
deriving DecidableEq, Repr

/-- A file as its reads see it; the reads are numbered. -/
structure Source where
  data : Bytes
  /-- The read returns at most this many bytes and one more. -/
  chunk : Nat → Nat
  /-- The read that takes the last byte says so at once. -/
  eager : Nat → Bool
  /-- The read fails. -/
  fails : Nat → Bool

/-- A reader in its present state. -/
inductive Reader
  /-- An open file with its cursor and the number of its next read. -/
  | file (f : Source) (cursor turn : Nat)
  | bytes (b : Bytes)
  /-- Source: `io` MultiReader -/
  | multi (first second : Reader)

namespace Reader

/-- What a read returns, and what the reader has become. -/
structure Portion where
  got : Bytes
  ending : ReadEnd
  rest : Reader

/-- Read up to `n` bytes. -/
def read : Reader → Nat → Portion
  | .file f cursor turn, n =>
    if f.fails turn then ⟨[], .failed, .file f cursor (turn + 1)⟩
    else if f.data.length ≤ cursor then ⟨[], .eof, .file f cursor (turn + 1)⟩
    else
      let got := (f.data.drop cursor).take (min n (f.chunk turn + 1))
      let next := cursor + got.length
      ⟨got, if f.data.length ≤ next ∧ f.eager turn = true then .eof else .more,
        .file f next (turn + 1)⟩
  | .bytes b, n => if b = [] then ⟨[], .eof, .bytes b⟩ else ⟨b.take n, .more, .bytes (b.drop n)⟩
  | .multi first second, n =>
    let x := first.read n
    match x.ending with
    | .more => ⟨x.got, .more, .multi x.rest second⟩
    | .failed => ⟨x.got, .failed, .multi x.rest second⟩
    | .eof => if x.got = [] then second.read n else ⟨x.got, .more, second⟩

/-- What is left to read. -/
def content : Reader → Bytes
  | .file f cursor _ => f.data.drop cursor
  | .bytes b => b
  | .multi first second => first.content ++ second.content

/-- No read fails. -/
def Reliable : Reader → Prop
  | .file f _ _ => ∀ turn, f.fails turn = false
  | .bytes _ => True
  | .multi first second => first.Reliable ∧ second.Reliable

/-- A read takes a beginning of what is left; it says that there is more only with at least one
byte, and the end only when nothing is left behind it. -/
structure Portion.Of (x : Portion) (r : Reader) (n : Nat) : Prop where
  content : r.content = x.got ++ x.rest.content
  length : x.got.length ≤ n
  more : x.ending = .more → x.got ≠ []
  eof : x.ending = .eof → x.rest.content = []
  failed : r.Reliable → x.ending ≠ .failed
  reliable : r.Reliable → x.rest.Reliable

/-- A read of the file gives the next bytes of it. -/
theorem read_file {n : Nat} (hn : 0 < n) (f : Source) (cursor turn : Nat) :
    ((file f cursor turn).read n).Of (file f cursor turn) n := by
  unfold read
  by_cases hfails : f.fails turn = true
  · rw [if_pos hfails]
    refine ⟨rfl, Nat.zero_le _, by simp, by simp, ?_, id⟩
    intro h
    exact absurd hfails (by rw [h turn]; exact Bool.false_ne_true)
  rw [if_neg hfails]
  by_cases hend : f.data.length ≤ cursor
  · rw [if_pos hend]
    exact ⟨rfl, Nat.zero_le _, by simp, fun _ => List.drop_of_length_le hend, by simp, id⟩
  rw [if_neg hend]
  generalize hgot : (f.data.drop cursor).take (min n (f.chunk turn + 1)) = got
  have hlen : got.length = min (min n (f.chunk turn + 1)) (f.data.length - cursor) := by
    rw [← hgot, List.length_take, List.length_drop]
  have hcontent : f.data.drop cursor = got ++ f.data.drop (cursor + got.length) := by
    rw [← List.drop_drop, hlen, ← hgot]
    conv => lhs; rw [← List.take_append_drop (min n (f.chunk turn + 1)) (f.data.drop cursor)]
    congr 1
    by_cases hle : min n (f.chunk turn + 1) ≤ f.data.length - cursor
    · rw [Nat.min_eq_left hle]
    · rw [List.drop_of_length_le (by rw [List.length_drop]; omega),
        List.drop_of_length_le (by rw [List.length_drop]; omega)]
  dsimp only
  refine ⟨hcontent, by dsimp only; omega, ?_, ?_, ?_, id⟩
  · intro _ hnil
    dsimp only at hnil
    rw [hnil, List.length_nil] at hlen
    omega
  · intro heof
    dsimp only at heof
    split at heof
    · rename_i h
      exact List.drop_of_length_le h.1
    · exact absurd heof (by simp)
  · intro _ hfailed
    dsimp only at hfailed
    split at hfailed
    · exact absurd hfailed (by simp)
    · exact absurd hfailed (by simp)

/-- A read gives the next bytes of the reader. -/
theorem read_spec {n : Nat} (hn : 0 < n) (r : Reader) : (r.read n).Of r n := by
  induction r with
  | file f cursor turn => exact read_file hn f cursor turn
  | bytes b =>
    unfold read
    by_cases hb : b = []
    · subst hb
      exact ⟨rfl, Nat.zero_le _, by simp, fun _ => rfl, by simp, id⟩
    · rw [if_neg hb]
      refine ⟨(List.take_append_drop n b).symm, List.length_take_le .., ?_, by simp, by simp, id⟩
      intro _ hnil
      rcases List.take_eq_nil_iff.mp hnil with h | h
      · omega
      · exact hb h
  | multi first second ih ih' =>
    have hshape : (multi first second).read n =
        match (first.read n).ending with
        | .more => ⟨(first.read n).got, .more, .multi (first.read n).rest second⟩
        | .failed => ⟨(first.read n).got, .failed, .multi (first.read n).rest second⟩
        | .eof => if (first.read n).got = [] then second.read n
          else ⟨(first.read n).got, .more, second⟩ :=
      rfl
    rw [hshape]
    rcases hending : (first.read n).ending with _ | _ | _
    · refine ⟨?_, ih.length, fun _ => ih.more hending, by simp, by simp,
        fun h => ⟨ih.reliable h.1, h.2⟩⟩
      simp only [Reader.content, ih.content, List.append_assoc]
    · have hleft := ih.eof hending
      have hfirst : first.content = (first.read n).got := by
        rw [ih.content, hleft, List.append_nil]
      dsimp only
      by_cases hgot : (first.read n).got = []
      · rw [if_pos hgot]
        refine ⟨?_, ih'.length, ih'.more, ih'.eof, fun h => ih'.failed h.2, fun h => ih'.reliable h.2⟩
        rw [content, hfirst, hgot]
        exact ih'.content
      · rw [if_neg hgot]
        refine ⟨?_, ih.length, fun _ => hgot, by simp, by simp, fun h => h.2⟩
        rw [content, hfirst]
    · refine ⟨?_, ih.length, by simp, by simp, fun h => absurd hending (ih.failed h.1),
        fun h => ⟨ih.reliable h.1, h.2⟩⟩
      simp only [Reader.content, ih.content, List.append_assoc]

/-! ## Reading a number of bytes -/

/-- What reading a number of bytes returns: the bytes, whether a read failed, and what the reader has
become. -/
structure Full where
  buf : Bytes
  failed : Bool
  rest : Reader

/-- Read until there are `n` bytes or no more.

Source: `io` ReadFull -/
def readFull (r : Reader) (n : Nat) : Full :=
  if n = 0 then ⟨[], false, r⟩
  else
    let x := r.read n
    match x.ending with
    | .eof => ⟨x.got, false, x.rest⟩
    | .failed => ⟨x.got, true, x.rest⟩
    | .more =>
      -- a read that says that there is more returns a byte
      if _ : x.got = [] then ⟨[], false, x.rest⟩
      else
        let y := readFull x.rest (n - x.got.length)
        ⟨x.got ++ y.buf, y.failed, y.rest⟩
termination_by n
decreasing_by
  rename_i hgot
  have hlen : 0 < (r.read n).got.length := List.length_pos_iff.mpr hgot
  omega

/-- The bytes are the first ones of what was left, and if no read failed, as many as were wanted or
all. -/
structure Full.Of (x : Full) (r : Reader) (n : Nat) : Prop where
  content : r.content = x.buf ++ x.rest.content
  length : x.buf.length ≤ n
  short : x.failed = false → x.buf.length < n → x.rest.content = []
  reliable : r.Reliable → x.failed = false ∧ x.rest.Reliable

/-- Reading in full gives as many bytes as there are, up to the number that was asked for. -/
theorem readFull_spec (r : Reader) (n : Nat) : (r.readFull n).Of r n := by
  induction n using Nat.strongRecOn generalizing r with
  | _ n ih =>
    rw [readFull]
    by_cases hn : n = 0
    · rw [if_pos hn]
      exact ⟨rfl, Nat.zero_le _, fun _ h => absurd h (by omega), fun h => ⟨rfl, h⟩⟩
    rw [if_neg hn]
    have hread := read_spec (Nat.pos_of_ne_zero hn) r
    dsimp only
    rcases hending : (r.read n).ending with _ | _ | _
    · have hgot := hread.more hending
      have hpos : 0 < (r.read n).got.length := List.length_pos_iff.mpr hgot
      have hlen := hread.length
      dsimp only
      rw [dif_neg hgot]
      have hrest := ih (n - (r.read n).got.length) (by omega) (r.read n).rest
      refine ⟨?_, ?_, ?_, fun h => hrest.reliable (hread.reliable h)⟩
      · rw [hread.content, hrest.content, List.append_assoc]
      · have hlen' := hrest.length
        rw [List.length_append]
        omega
      · intro hfailed hshort
        rw [List.length_append] at hshort
        exact hrest.short hfailed (by omega)
    · exact ⟨hread.content, hread.length, fun _ _ => hread.eof hending,
        fun h => ⟨rfl, hread.reliable h⟩⟩
    · refine ⟨hread.content, hread.length, by simp, ?_⟩
      intro h
      exact absurd hending (hread.failed h)

/-- The buffer holds the beginning of what was left. -/
theorem Full.Of.take {x : Full} {r : Reader} {n : Nat} (h : x.Of r n) (hok : x.failed = false) :
    x.buf = r.content.take n := by
  rw [h.content, List.take_append]
  by_cases hshort : x.buf.length < n
  · rw [h.short hok hshort, List.take_nil, List.append_nil, List.take_of_length_le (by omega)]
  · have hlen := h.length
    rw [List.take_of_length_le hlen, Nat.sub_eq_zero_of_le (by omega), List.take_zero, List.append_nil]

/-- Read a number of bytes and put them in front of the reader again. -/
def stitched (x : Full) : Reader := .multi (.bytes x.buf) x.rest

/-- What was read and put in front again is not lost. -/
theorem content_stitched (r : Reader) (n : Nat) : (stitched (r.readFull n)).content = r.content :=
  (readFull_spec r n).content.symm

/-- And can be read without failing. -/
theorem reliable_stitched {r : Reader} (h : r.Reliable) (n : Nat) :
    (stitched (r.readFull n)).Reliable :=
  ⟨trivial, ((readFull_spec r n).reliable h).2⟩

/-! ## Reading to the end -/

/-- Read to the end with requests of these sizes; none if a read fails or the turns do not suffice. -/
def drain (want : Nat → Nat) : Nat → Nat → Reader → Option Bytes
  | 0, _, _ => none
  | turns + 1, i, r =>
    let x := r.read (want i)
    match x.ending with
    | .eof => some x.got
    | .failed => none
    | .more => (drain want turns (i + 1) x.rest).map (x.got ++ ·)

/-- Whoever reads to the end, with whatever requests, gets these bytes. -/
def Yields (r : Reader) (b : Bytes) : Prop :=
  ∀ want : Nat → Nat, (∀ i, 0 < want i) → ∃ turns, drain want turns 0 r = some b

/-- A reader that does not fail is drained of its content. -/
theorem drain_content {want : Nat → Nat} (hwant : ∀ i, 0 < want i) {turns : Nat} {r : Reader}
    (h : r.Reliable) (hturns : r.content.length < turns) (i : Nat) :
    drain want turns i r = some r.content := by
  induction turns generalizing i r with
  | zero => omega
  | succ turns ih =>
    have hread := read_spec (hwant i) r
    unfold drain
    dsimp only
    rcases hending : (r.read (want i)).ending with _ | _ | _
    · -- at least one byte was read, so the turns suffice for the rest
      have hpos : 0 < (r.read (want i)).got.length := List.length_pos_iff.mpr (hread.more hending)
      have hsum := congrArg List.length hread.content
      rw [List.length_append] at hsum
      rw [hread.content, ih (hread.reliable h) (by omega)]
      rfl
    · rw [hread.content, hread.eof hending, List.append_nil]
    · exact absurd hending (hread.failed h)

/-- A reader that does not fail yields its content. -/
theorem yields_content {r : Reader} (h : r.Reliable) : r.Yields r.content := by
  intro want hwant
  exact ⟨r.content.length + 1, drain_content hwant h (Nat.lt_succ_self _) 0⟩

end Reader

end Conc
