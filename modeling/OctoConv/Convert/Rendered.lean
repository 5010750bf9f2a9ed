import OctoConv.Convert.Chromium
import OctoConv.Convert.Htmlsniff
import OctoConv.Convert.Opts
import OctoConv.Lib.HtmlLexer

/-!
# The rendered copy of a page

The copy that is printed carries a policy tag that turns scripts off. Such a tag governs only what
is parsed behind it, so it has to stand in the markup itself and before every script of the upload.
What is markup depends on the tree the browser builds, so every result is for any `TreeBuilder`.

Source: `internal/convert/chromium.go` ChromiumConverter.Convert; `internal/convert/htmlopts.go`
buildPrintCSS.

## Main results

* `Policed.started` — where the policy leads, the started elements are those before it, the policy,
  and the rest, and no script is before it.
* `policed_iff` — the policy leads in the rendered copy exactly if the greater-than sign it is put
  behind ends a tag of the page itself, with no script before it.
-/

namespace OctoConv

open Conc

/-! ## The copy -/

/-- Source: `chromium.go` cspNoScriptMeta -/
def cspNoScriptMeta : Bytes :=
  Bytes.ascii "<meta http-equiv=\"Content-Security-Policy\" content=\"script-src 'none'; object-src 'none'\">"

/-- Source: `htmlopts.go` htmlPageSizeCSS -/
def htmlPageSizeCSS : List (String × String) :=
  [("a4", "A4"), ("letter", "letter"), ("legal", "legal"), ("a3", "A3"), ("a5", "A5")]

/-- The keys are the accepted page sizes. -/
example : htmlPageSizeCSS.map Prod.fst = htmlPageSizes := rfl

/-- Source: `htmlopts.go` buildPrintCSS -/
def buildPrintCSS (o : HTMLOpts) : String :=
  let size := (htmlPageSizeCSS.lookup o.pageSize).getD ""
  let size := if size = "" then (htmlPageSizeCSS.lookup "a4").getD "" else size
  let size := if o.landscape then size ++ " landscape" else size
  let css :=
    match o.marginMM with
    | some n =>
      "@page \x7b size: " ++ size ++ " !important; margin: " ++ toString n ++ "mm !important; \x7d\n"
    | none => "@page \x7b size: " ++ size ++ " !important; \x7d\n"
  let css :=
    if o.printBackground then
      css ++ "*, *::before, *::after \x7b -webkit-print-color-adjust: exact !important; " ++
        "print-color-adjust: exact !important; \x7d\n"
    else
      css ++ "*, *::before, *::after \x7b -webkit-print-color-adjust: economy !important; " ++
        "print-color-adjust: economy !important; " ++
        "background: none !important; background-color: transparent !important; " ++
        "background-image: none !important; \x7d\n"
  "<style>" ++ css ++ "</style>"

/-- The style of these options as bytes. -/
def printCSS (o : HTMLOpts) : Bytes := Bytes.ascii (buildPrintCSS o)

/-- The copy that is written; none is a panic.

Source: `chromium.go` ChromiumConverter.Convert -/
def rendered (html : Bytes) (o : HTMLOpts) : Option Bytes := do
  let page ← injectCSPFirst html cspNoScriptMeta
  injectPrintCSS page (printCSS o)

/-- Where the policy is in the copy: where it was put, or behind as many more bytes as the style
has, if the style went before it. -/
def policyAt (html : Bytes) (o : HTMLOpts) : Option Nat := do
  let k ← cspOffset html
  let page ← spliceAt html k cspNoScriptMeta
  let c ← cssOffset page
  some (if c ≤ k then k + (printCSS o).length else k)

/-- The policy is whole in the rendered copy, in the markup proper, and no script starts before it. -/
def Policed (b : Html.TreeBuilder) (html : Bytes) (o : HTMLOpts) : Prop :=
  ∀ r, rendered html o = some r →
    ∃ j, policyAt html o = some j ∧ cspNoScriptMeta <+: r.drop j ∧ Html.Proper b (r.take j)

/-- In the markup proper the policy is a meta element and nothing else. -/
theorem run_cspNoScriptMeta (b : Html.TreeBuilder) (page : Bytes) :
    Html.run b page .data cspNoScriptMeta = (.data, [Bytes.ascii "meta"]) := by
  have hsplit : cspNoScriptMeta =
      Bytes.ascii "<meta http-equiv=\"" ++ (Bytes.ascii "Content-Security-Policy\"" ++
        (Bytes.ascii " content=\"" ++
          (Bytes.ascii "script-src 'none'; object-src 'none'\"" ++ Bytes.ascii ">"))) := by
    decide +kernel
  have hname (page : Bytes) : Html.run b page .data (Bytes.ascii "<meta http-equiv=\"") =
      (.doubleQuoted ⟨false, Bytes.ascii "meta"⟩, []) := rfl
  have hcontent (page : Bytes) (t : Html.Tag) :
      Html.run b page (.afterQuoted t) (Bytes.ascii " content=\"") = (.doubleQuoted t, []) := rfl
  have hpolicy (page : Bytes) (t : Html.Tag) : Html.run b page (.doubleQuoted t)
      (Bytes.ascii "Content-Security-Policy\"") = (.afterQuoted t, []) :=
    Html.run_doubleQuoted b page t (v := Bytes.ascii "Content-Security-Policy") rfl (by decide)
  have hscripts (page : Bytes) (t : Html.Tag) : Html.run b page (.doubleQuoted t)
      (Bytes.ascii "script-src 'none'; object-src 'none'\"") = (.afterQuoted t, []) :=
    Html.run_doubleQuoted b page t (v := Bytes.ascii "script-src 'none'; object-src 'none'") rfl
      (by decide)
  rw [hsplit]
  simp only [Html.run_append, hname, hpolicy, hcontent, hscripts]
  rfl

/-- Where the policy leads, no element that is started before it is a script. -/
theorem Policed.started {b : Html.TreeBuilder} {html r : Bytes} {o : HTMLOpts}
    (h : Policed b html o) (hr : rendered html o = some r) :
    ∃ before after, (Html.run b [] .data r).2 = before ++ Bytes.ascii "meta" :: after ∧
      Bytes.ascii "script" ∉ before := by
  obtain ⟨j, -, ⟨post, hpost⟩, hdata, hscript⟩ := h r hr
  have hsplit : r = r.take j ++ (cspNoScriptMeta ++ post) := by
    rw [hpost, List.take_append_drop]
  refine ⟨(Html.run b [] .data (r.take j)).2,
    (Html.run b (r.take j ++ cspNoScriptMeta) .data post).2, ?_, hscript⟩
  rw [hsplit, Html.run_append, ← hsplit, hdata, Html.run_append, List.nil_append,
    run_cspNoScriptMeta]
  rfl

/-! ## Where the page is cut -/

/-- Behind the greater-than sign that is found from the head tag on, else from the html tag on. -/
def policyPlace (html : Bytes) : Nat :=
  ((shiftedEnd html headOpenPrefix).or (shiftedEnd html htmlOpenPrefix)).getD 0

/-- Before the closing head tag, else behind the greater-than sign that is found from the html tag
on. -/
def stylePlace (page : Bytes) : Nat :=
  match tagAt page headCloseTag with
  | some i => lowered page i
  | none => (shiftedEnd page htmlOpenPrefix).getD 0

/-- The search for the policy's place stays in the page. -/
def PolicyInPage (html : Bytes) : Prop :=
  InPage html headOpenPrefix ∧ (shiftedEnd html headOpenPrefix = none → InPage html htmlOpenPrefix)

/-- The search for the style's place stays in the page. -/
def StyleInPage (page : Bytes) : Prop :=
  match tagAt page headCloseTag with
  | some i => lowered page i ≤ page.length
  | none => InPage page htmlOpenPrefix

/-- The place of the policy is in the page. -/
theorem policyPlace_le (html : Bytes) : policyPlace html ≤ html.length := by
  unfold policyPlace
  exact getD_zero_le (forall_or (fun _ h => (shiftedEnd_bounds h).1) fun _ h => (shiftedEnd_bounds h).1)

/-- The policy is inserted at its place. -/
theorem cspOffset_of_inPage {html : Bytes} (h : PolicyInPage html) :
    cspOffset html = some (policyPlace html) := by
  obtain ⟨hhead, hhtml⟩ := h
  unfold cspOffset policyPlace
  rw [openingEnd_of_inPage (by simp) hhead, Option.bind_eq_bind, Option.bind_some]
  cases hend : shiftedEnd html headOpenPrefix with
  | some k => rfl
  | none =>
    dsimp only
    rw [openingEnd_of_inPage (by simp) (hhtml hend)]
    rfl

/-- Without such a place there is no offset. -/
theorem cspOffset_of_not_inPage {html : Bytes} (h : ¬ PolicyInPage html) : cspOffset html = none := by
  unfold cspOffset
  by_cases hhead : InPage html headOpenPrefix
  · rw [openingEnd_of_inPage (by simp) hhead, Option.bind_eq_bind, Option.bind_some]
    cases hend : shiftedEnd html headOpenPrefix with
    | some k => exact absurd ⟨hhead, fun hnone => absurd (hend.symm.trans hnone) (by simp)⟩ h
    | none =>
      have hhtml : ¬ InPage html htmlOpenPrefix := fun hhtml => h ⟨hhead, fun _ => hhtml⟩
      dsimp only
      rw [openingEnd_of_not_inPage (by simp) hhtml]
      rfl
  · rw [openingEnd_of_not_inPage (by simp) hhead]
    rfl

/-- The style is spliced in at its place, or there is no copy. -/
theorem cssOffset_cases (page s : Bytes) :
    (StyleInPage page ∧ stylePlace page ≤ page.length ∧ cssOffset page = some (stylePlace page)) ∨
      (¬ StyleInPage page ∧ (cssOffset page).bind (fun c => spliceAt page c s) = none) := by
  unfold StyleInPage stylePlace cssOffset
  rw [indexOf_lower (by simp)]
  cases hi : tagAt page headCloseTag with
  | some i =>
    rw [Option.map_some]
    by_cases hle : lowered page i ≤ page.length
    · exact .inl ⟨hle, hle, rfl⟩
    · refine .inr ⟨hle, ?_⟩
      rw [Option.bind_some, spliceAt_none (by omega)]
  | none =>
    rw [Option.map_none]
    by_cases hhtml : InPage page htmlOpenPrefix
    · refine .inl ⟨hhtml, ?_, ?_⟩
      · cases hend : shiftedEnd page htmlOpenPrefix with
        | none => exact Nat.zero_le _
        | some k => exact (shiftedEnd_bounds hend).1
      · dsimp only
        rw [openingEnd_of_inPage (by simp) hhtml]
        rfl
    · refine .inr ⟨hhtml, ?_⟩
      dsimp only
      rw [openingEnd_of_not_inPage (by simp) hhtml]
      rfl

/-! ## The condition -/

/-- The page without its style. -/
def policyPage (html : Bytes) : Bytes := insertAt html (policyPlace html) cspNoScriptMeta

/-- The greater-than sign behind which the policy is put ends a tag or comment of the page, with no
script before it, and the style is not spliced into the policy; where the style goes before the
policy, the same holds with the style in the page. -/
def PolicyLeads (b : Html.TreeBuilder) (html : Bytes) (o : HTMLOpts) : Prop :=
  PolicyInPage html → StyleInPage (policyPage html) →
    let k := policyPlace html
    let c := stylePlace (policyPage html)
    (c ≤ k ∧ Html.Proper b (html.take c ++ printCSS o ++ (html.take k).drop c)) ∨
      (k + cspNoScriptMeta.length ≤ c ∧ Html.Proper b (html.take k))

/-- The policy begins with its only less-than sign. -/
theorem cspNoScriptMeta_head : ∃ s, cspNoScriptMeta = 0x3C :: s ∧ 0x3C ∉ s := by
  refine ⟨cspNoScriptMeta.tail, ?_, ?_⟩
  · decide
  · decide

/-- A style begins with a less-than sign. -/
theorem printCSS_head (o : HTMLOpts) : ∃ s, printCSS o = 0x3C :: s := by
  unfold printCSS buildPrintCSS Bytes.ascii
  simp only [String.toList_append, List.map_append, List.append_assoc]
  exact ⟨_, rfl⟩

/-- A text inserted at or before the place of another one. -/
theorem insertAt_before {html : Bytes} {k c : Nat} (hk : k ≤ html.length) (hc : c ≤ k) (p s : Bytes) :
    insertAt (insertAt html k p) c s =
      (html.take c ++ s ++ (html.take k).drop c) ++ (p ++ html.drop k) := by
  have htake : (html.take k ++ p ++ html.drop k).take c = html.take c := by
    rw [List.append_assoc, List.take_append_of_le_length (by rw [List.length_take]; omega),
      List.take_take, Nat.min_eq_left hc]
  have hdrop : (html.take k ++ p ++ html.drop k).drop c =
      (html.take k).drop c ++ (p ++ html.drop k) := by
    rw [List.append_assoc, List.drop_append_of_le_length (by rw [List.length_take]; omega)]
  unfold insertAt
  rw [htake, hdrop]
  simp only [List.append_assoc]

/-- A text inserted behind the place of another one. -/
theorem insertAt_after {html : Bytes} {k c : Nat} (hk : k ≤ html.length) (hc : k ≤ c) (p s : Bytes) :
    insertAt (insertAt html k p) c s =
      html.take k ++ ((p ++ html.drop k).take (c - k) ++ (s ++ (p ++ html.drop k).drop (c - k))) := by
  have hlen : (html.take k).length = k := by
    rw [List.length_take]
    omega
  obtain ⟨d, rfl⟩ := Nat.exists_eq_add_of_le hc
  have htake : (html.take k ++ p ++ html.drop k).take (k + d) =
      html.take k ++ (p ++ html.drop k).take d := by
    rw [List.append_assoc, List.take_append, hlen, Nat.add_sub_cancel_left,
      List.take_of_length_le (by omega)]
  have hdrop : (html.take k ++ p ++ html.drop k).drop (k + d) = (p ++ html.drop k).drop d := by
    rw [List.append_assoc, List.drop_append, hlen, Nat.add_sub_cancel_left,
      List.drop_of_length_le (by omega), List.nil_append]
  unfold insertAt
  rw [htake, hdrop, Nat.add_sub_cancel_left]
  simp only [List.append_assoc]

/-- A policy that is cut by a style is not whole. -/
theorem not_prefix_cut {d : Nat} (hpos : 0 < d) (hlt : d < cspNoScriptMeta.length) (o : HTMLOpts)
    (b post : Bytes) : ¬ cspNoScriptMeta <+: (cspNoScriptMeta ++ b).take d ++ (printCSS o ++ post) := by
  obtain ⟨p, hp, hmem⟩ := cspNoScriptMeta_head
  obtain ⟨s, hs⟩ := printCSS_head o
  intro h
  rw [List.take_append_of_le_length (Nat.le_of_lt hlt), hs] at h
  have hget : cspNoScriptMeta[d]? = some 0x3C := by
    obtain ⟨t, ht⟩ := h
    have hat := congrArg (fun l => l[d]?) ht
    have hlen : (cspNoScriptMeta.take d).length = d := by
      rw [List.length_take]
      omega
    rw [List.getElem?_append_left hlt, List.getElem?_append_right (by omega), hlen, Nat.sub_self] at hat
    exact hat
  obtain ⟨d, rfl⟩ : ∃ e, d = e + 1 := ⟨d - 1, by omega⟩
  rw [hp, List.getElem?_cons_succ] at hget
  exact hmem (List.mem_of_getElem? hget)

/-- Where the style goes in front of the policy. -/
theorem policed_before (b : Html.TreeBuilder) {html : Bytes} {k c : Nat} (hk : k ≤ html.length)
    (hc : c ≤ k) (o : HTMLOpts) :
    let r := insertAt (insertAt html k cspNoScriptMeta) c (printCSS o)
    let j := k + (printCSS o).length
    (cspNoScriptMeta <+: r.drop j ∧ Html.Proper b (r.take j)) ↔
      Html.Proper b (html.take c ++ printCSS o ++ (html.take k).drop c) := by
  intro r j
  have hr : r = (html.take c ++ printCSS o ++ (html.take k).drop c) ++
    (cspNoScriptMeta ++ html.drop k) :=
    insertAt_before hk hc cspNoScriptMeta (printCSS o)
  have hj : j = (html.take c ++ printCSS o ++ (html.take k).drop c).length := by
    simp only [List.length_append, List.length_drop, List.length_take]
    omega
  rw [hr, hj, List.drop_left, List.take_left]
  constructor
  · rintro ⟨-, hproper⟩
    exact hproper
  · intro hproper
    exact ⟨List.prefix_append _ _, hproper⟩

/-- Where the style goes behind the beginning of the policy. -/
theorem policed_after (b : Html.TreeBuilder) {html : Bytes} {k c : Nat} (hk : k ≤ html.length)
    (hc : k < c) (o : HTMLOpts) :
    let r := insertAt (insertAt html k cspNoScriptMeta) c (printCSS o)
    (cspNoScriptMeta <+: r.drop k ∧ Html.Proper b (r.take k)) ↔
      k + cspNoScriptMeta.length ≤ c ∧ Html.Proper b (html.take k) := by
  intro r
  have hlen : (html.take k).length = k := by
    rw [List.length_take]
    omega
  have hr : r = html.take k ++ ((cspNoScriptMeta ++ html.drop k).take (c - k) ++
      (printCSS o ++ (cspNoScriptMeta ++ html.drop k).drop (c - k))) :=
    insertAt_after hk (Nat.le_of_lt hc) cspNoScriptMeta (printCSS o)
  have hdrop : r.drop k = (cspNoScriptMeta ++ html.drop k).take (c - k) ++
      (printCSS o ++ (cspNoScriptMeta ++ html.drop k).drop (c - k)) := by
    rw [hr, List.drop_append, hlen, Nat.sub_self, List.drop_zero, List.drop_of_length_le (by omega),
      List.nil_append]
  have htake : r.take k = html.take k := by
    rw [hr, List.take_append_of_le_length (by omega), List.take_take, Nat.min_self]
  rw [hdrop, htake]
  constructor
  · rintro ⟨hstarts, hproper⟩
    refine ⟨?_, hproper⟩
    by_contra hlt
    exact not_prefix_cut (by omega) (by omega) o _ _ hstarts
  · rintro ⟨hle, hproper⟩
    refine ⟨?_, hproper⟩
    rw [List.take_append, List.take_of_length_le (by omega), List.append_assoc]
    exact List.prefix_append _ _

/-- There is at most one copy, and one place of the policy in it. -/
theorem policed_of_copy (b : Html.TreeBuilder) {html r : Bytes} {o : HTMLOpts} {j : Nat}
    (hr : rendered html o = some r) (hj : policyAt html o = some j) :
    Policed b html o ↔ cspNoScriptMeta <+: r.drop j ∧ Html.Proper b (r.take j) := by
  unfold Policed
  rw [hr, hj]
  constructor
  · intro h
    obtain ⟨j', hj', hj⟩ := h r rfl
    cases hj'
    exact hj
  · intro h r' hr'
    cases hr'
    exact ⟨j, rfl, h⟩

/-- The policy leads in the rendered copy of a page exactly under this condition on the page,
whatever tree the browser builds.

Source: `chromium.go` injectCSPFirst, injectPrintCSS, ChromiumConverter.Convert -/
theorem policed_iff (b : Html.TreeBuilder) (html : Bytes) (o : HTMLOpts) :
    Policed b html o ↔ PolicyLeads b html o := by
  have hk := policyPlace_le html
  by_cases hpolicy : PolicyInPage html
  · have hpage : spliceAt html (policyPlace html) cspNoScriptMeta = some (policyPage html) :=
      spliceAt_eq hk cspNoScriptMeta
    have hrendered : rendered html o =
        (cssOffset (policyPage html)).bind fun c => spliceAt (policyPage html) c (printCSS o) := by
      unfold rendered
      rw [injectCSPFirst_eq, cspOffset_of_inPage hpolicy, Option.bind_some, hpage]
      exact injectPrintCSS_eq _ _
    rcases cssOffset_cases (policyPage html) (printCSS o) with
      ⟨hstyle, hc, hoffset⟩ | ⟨hstyle, hnone⟩
    · -- both searches stay in the page: there is one copy, and one place of the policy in it
      have hcopy : rendered html o =
          some (insertAt (policyPage html) (stylePlace (policyPage html)) (printCSS o)) := by
        rw [hrendered, hoffset, Option.bind_some, spliceAt_eq hc]
      have hat : policyAt html o = some (if stylePlace (policyPage html) ≤ policyPlace html then
          policyPlace html + (printCSS o).length else policyPlace html) := by
        unfold policyAt
        rw [cspOffset_of_inPage hpolicy, Option.bind_eq_bind, Option.bind_some, hpage,
          Option.bind_eq_bind, Option.bind_some, hoffset, Option.bind_some]
      rw [policed_of_copy b hcopy hat]
      unfold PolicyLeads
      simp only [hpolicy, hstyle, true_imp_iff]
      by_cases hle : stylePlace (policyPage html) ≤ policyPlace html
      · have hlen : 0 < cspNoScriptMeta.length := by decide
        rw [if_pos hle]
        refine (policed_before b hk hle o).trans ?_
        constructor
        · intro h
          exact .inl ⟨hle, h⟩
        · rintro (⟨-, h⟩ | ⟨hbad, -⟩)
          · exact h
          · omega
      · rw [if_neg hle]
        refine (policed_after b hk (Nat.lt_of_not_le hle) o).trans ?_
        constructor
        · exact .inr
        · rintro (⟨hbad, -⟩ | h)
          · omega
          · exact h
    · rw [hnone] at hrendered
      constructor
      · intro _ _ h
        exact absurd h hstyle
      · intro _ r hr
        exact absurd (hrendered.symm.trans hr) (by simp)
  · have hnone : rendered html o = none := by
      unfold rendered
      rw [injectCSPFirst_eq, cspOffset_of_not_inPage hpolicy]
      rfl
    constructor
    · intro _ h
      exact absurd h hpolicy
    · intro _ r hr
      exact absurd (hnone.symm.trans hr) (by simp)

/-- A page whose script stands before its head. -/
def scriptedPage : Bytes := Utf8.encode "<html><script>x()</script><head></head></html>".toList

/-- There is no browser that would parse the policy first on every page: each one parses the script of
this page before it. -/
theorem policed_late :
    ¬ ∃ b, ∀ html o, looksLikeHTML html html.length = true → Policed b html o := by
  rintro ⟨b, h⟩
  have hcap : scriptedPage.take htmlSniffCap = scriptedPage :=
    List.take_of_length_le (by decide +kernel)
  have haccepted : looksLikeHTML scriptedPage scriptedPage.length = true := by
    rw [looksLikeHTML_iff, hcap]
    refine ⟨by decide +kernel, Utf8.valid_encode _, [], [], scriptedPage, rfl, .inl rfl, by simp, ?_⟩
    exact .inr ⟨0x3E, by decide, by decide +kernel⟩
  have hlead := (policed_iff b _ _).mp (h scriptedPage htmlSchema.zero haccepted)
  have hascii : ∀ x ∈ scriptedPage, x < 0x80 := by decide +kernel
  have hplace : policyPlace scriptedPage = 32 := by
    unfold policyPlace
    rw [shiftedEnd_ascii hascii, shiftedEnd_ascii hascii]
    decide +kernel
  have hpageAscii : ∀ x ∈ policyPage scriptedPage, x < 0x80 := by
    unfold policyPage
    rw [hplace]
    decide +kernel
  have hclose : tagAt (policyPage scriptedPage) headCloseTag = some (32 + cspNoScriptMeta.length) := by
    unfold policyPage
    rw [hplace]
    decide +kernel
  have hstyle : stylePlace (policyPage scriptedPage) = 32 + cspNoScriptMeta.length := by
    unfold stylePlace
    rw [hclose]
    exact lowered_ascii hpageAscii (tagAt_le hclose)
  have hinPage : StyleInPage (policyPage scriptedPage) := by
    unfold StyleInPage
    rw [hclose]
    dsimp only
    rw [lowered_ascii hpageAscii (tagAt_le hclose)]
    exact tagAt_le hclose
  have hpolicy : PolicyInPage scriptedPage := ⟨inPage_ascii hascii _, fun _ => inPage_ascii hascii _⟩
  have hsplit : scriptedPage.take 32 =
      Bytes.ascii "<html><script>" ++ Bytes.ascii "x()</script><head>" := by
    decide +kernel
  rcases hlead hpolicy hinPage with ⟨hle, -⟩ | ⟨-, hproper⟩
  · rw [hstyle, hplace] at hle
    exact absurd hle (by decide)
  · rw [hplace, hsplit] at hproper
    refine Html.not_proper_of_script b ?_ _ hproper
    exact List.mem_cons_of_mem _ (List.mem_singleton.mpr rfl)

end OctoConv
