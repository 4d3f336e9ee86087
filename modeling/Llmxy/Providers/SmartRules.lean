import Llmxy.Admin.Catalog
import Llmxy.Lib.JsonKeys
import Llmxy.Relay.Prompt

/-!
# The rules of a smart route

A rule is a dictionary with a type; its evaluator reads the fields it needs and returns a
label or nothing.  The first label decides.  The admin API parses the rules it is sent with
`RouteRule` and stores what `model_dump` gives back, so a field that `RouteRule` does not know
does not reach the evaluators.

`re.search` without regard to case, `str.upper`, `repr` and the GeoIP lookup are parameters.

## Main definitions

* `applyRules` — `_apply_rules` with the evaluators.
* `RouteRule.parse?` — what the admin API makes of a rule it is sent.
* `applyRules_stored_iff` — when the stored rules decide as those that were sent.
-/

namespace Llmxy

/-- What the evaluators use of Python and of GeoIP. -/
structure RuleTools where
  /-- `re.search(pattern, text, re.IGNORECASE)`; `none` when the pattern is none. -/
  search : Str → Str → Option Bool
  /-- `s.upper()`. -/
  upper : Str → Str
  /-- `repr` of a float, a list or a dictionary. -/
  repr : Json → Str
  /-- `geo.lookup_country`. -/
  lookupCountry : Str → Option Str

/-- `RuleContext`. -/
structure RuleContext where
  promptText : Str
  clientIp : Option Str

/-! ### Predicates -/

/-- `_approx_token_count`. -/
def approxTokenCount (text : Str) : ℕ := max 1 (text.length / 4)

/-- `_CODE_FENCE_RE.search(text)`. -/
def hasCodeFence (text : Str) : Bool := str "```" <:+: text

/-- The characters `_CJK_RE` and `_LATIN_RE` find. -/
def cjkCount (text : Str) : ℕ := text.countP fun c => 0x4e00 ≤ c && c ≤ 0x9fff

def latinCount (text : Str) : ℕ :=
  text.countP fun c => (65 ≤ c && c ≤ 90) || (97 ≤ c && c ≤ 122)

/-- `_cjk_ratio(text)`, as a fraction; that of a text without letters is zero. -/
def cjkRatio (text : Str) : ℕ × ℕ :=
  let total := cjkCount text + latinCount text
  if total = 0 then (0, 1) else (cjkCount text, total)

/-- `PRESET_PREDICATES`. -/
def presetPredicates (tools : RuleTools) : List (Str × (Str → Option Bool)) := [
  (str "code_block", fun t => some (hasCodeFence t)),
  (str "long_prompt", fun t => some (800 < approxTokenCount t)),
  (str "short_prompt", fun t => some (approxTokenCount t ≤ 80)),
  (str "translate", tools.search (str "translate|translation|翻译|翻成|译成")),
  (str "math", tools.search (str
    "calculate|solve|equation|integral|derivative|prove|计算|求解|证明|方程|积分|导数|\\\\frac|\\\\int|\\\\sum")),
  (str "reasoning", tools.search (str
    "step[- ]by[- ]step|think step|reason through|chain of thought|逐步|推理|思考过程")),
  (str "summarize", tools.search (str "summari[sz]e|summary|tl;?dr|总结|概括|摘要")),
  (str "creative", tools.search (str "story|poem|novel|creative|fiction|故事|诗|小说|剧本|续写")),
  (str "chinese", fun t => some (3 * (cjkRatio t).2 ≤ 10 * (cjkRatio t).1)),
  (str "english", fun t => some (20 * (cjkRatio t).1 < (cjkRatio t).2 && 0 < latinCount t))]

/-! ### Evaluators -/

/-- The text of a value, if it is one that is not empty. -/
def textOf : Json → Option Str
  | .str s => if s.isEmpty then none else some s
  | _ => none

/-- `_eval_preset`. -/
def evalPreset (tools : RuleTools) (rule : Json) (ctx : RuleContext) : Option Json :=
  let label := fieldOf (str "label") rule
  match (textOf (fieldOf (str "id") rule)).bind fun id => (presetPredicates tools).lookup id with
  | none => some .null
  | some pred =>
      if !label.truthy then some .null
      else (pred ctx.promptText).map fun found => if found then label else .null

/-- `_eval_tokens`. -/
def evalTokens (rule : Json) (ctx : RuleContext) : Option Json :=
  let threshold := fieldOf (str "threshold") rule
  let gtLabel := fieldOf (str "gt_label") rule
  let lteLabel := fieldOf (str "lte_label") rule
  (if threshold.truthy then threshold.toInt? else some 0).map fun threshold =>
    let tk : ℤ := approxTokenCount ctx.promptText
    if threshold < tk ∧ gtLabel.truthy then gtLabel
    else if tk ≤ threshold ∧ lteLabel.truthy then lteLabel
    else .null

/-- `_eval_keyword`. -/
def evalKeyword (tools : RuleTools) (rule : Json) (ctx : RuleContext) : Option Json :=
  let pattern := fieldOf (str "pattern") rule
  let label := fieldOf (str "label") rule
  if !pattern.truthy || !label.truthy then some .null
  else
    match pattern with
    | .str pattern =>
        (tools.search pattern ctx.promptText).map fun found => if found then label else .null
    | _ => none

/-- `_eval_code_block`. -/
def evalCodeBlock (rule : Json) (ctx : RuleContext) : Option Json :=
  let label := fieldOf (str "label") rule
  some (if label.truthy && hasCodeFence ctx.promptText then label else .null)

/-- `_eval_geo`. -/
def evalGeo (tools : RuleTools) (rule : Json) (ctx : RuleContext) : Option Json :=
  let ip := ctx.clientIp.getD []
  let label := fieldOf (str "label") rule
  let raw := fieldOf (str "countries") rule
  if ip.isEmpty || !label.truthy || !raw.truthy then some .null
  else
    raw.iter?.map fun countries =>
      let wanted := (countries.filter Json.truthy).map fun c => tools.upper (c.toStr tools.repr)
      let cc := (tools.lookupCountry ip).getD []
      if !cc.isEmpty && tools.upper cc ∈ wanted then label else .null

/-- `_RULE_EVALUATORS`. -/
def ruleEvaluators (tools : RuleTools) : List (Str × (Json → RuleContext → Option Json)) := [
  (str "preset", evalPreset tools),
  (str "tokens", evalTokens),
  (str "keyword", evalKeyword tools),
  (str "code_block", evalCodeBlock),
  (str "geo", evalGeo tools)]

/-- The label a rule gives: none when it has no evaluator, when the evaluator raises, and when
what it returns is false.  The type of a rule is a text here. -/
def ruleLabel (tools : RuleTools) (ctx : RuleContext) (rule : Json) : Option Json :=
  ((textOf (fieldOf (str "type") rule)).bind fun type => (ruleEvaluators tools).lookup type).bind
    fun ev => (ev rule ctx).filter Json.truthy

/-- `_apply_rules`. -/
def applyRules (tools : RuleTools) (ctx : RuleContext) (rules : List Json) : Option Json :=
  rules.findSome? (ruleLabel tools ctx)

/-! ### What is stored -/

/-- A text that may be missing; `none` when there is something else. -/
def optionalText (key : Str) (d : Json) : Option (Option Str) :=
  match fieldOf key d with
  | .null => some none
  | .str s => some (some s)
  | _ => none

/-- An integer that may be missing; `none` when there is something else. -/
def optionalInt (key : Str) (d : Json) : Option (Option ℤ) :=
  match fieldOf key d with
  | .null => some none
  | .int n => some (some n)
  | _ => none

/-- `RouteRule(**d)` for a dictionary whose fields have the types `RouteRule` declares; fields
it does not declare are dropped. -/
def Admin.RouteRule.parse? (d : Json) : Option Admin.RouteRule := do
  let type ← (d.get? (str "type")).bind Json.str?
  let id ← optionalText (str "id") d
  let threshold ← optionalInt (str "threshold") d
  let gtLabel ← optionalText (str "gt_label") d
  let lteLabel ← optionalText (str "lte_label") d
  let pattern ← optionalText (str "pattern") d
  let label ← optionalText (str "label") d
  return { type, id, threshold, gtLabel, lteLabel, pattern, label }

section
open Admin
variable {d : Json} {r : RouteRule}

/-- The fields that `RouteRule` declares. -/
def ruleFields : List Str := [str "type", str "id", str "threshold", str "gt_label",
  str "lte_label", str "pattern", str "label"]

theorem lookup_optional {α : Type} (key key' : Str) (value : Option α) (f : α → Json) :
    Json.lookup key ((value.map fun a => (key', f a)).toList) =
      if key' = key then value.map f else none := by
  cases value with
  | none => simp [Json.lookup_nil]
  | some a => simp [Json.lookup_cons, Json.lookup_nil]

theorem fieldOf_optionalText {key : Str} {value : Option Str} (h : optionalText key d = some value) :
    fieldOf key d = (value.map Json.str).getD .null := by
  rw [optionalText] at h
  split at h
  · next heq =>
      obtain rfl := Option.some.inj h
      exact heq
  · next heq =>
      obtain rfl := Option.some.inj h
      exact heq
  · cases h

theorem fieldOf_optionalInt {key : Str} {value : Option ℤ} (h : optionalInt key d = some value) :
    fieldOf key d = (value.map Json.int).getD .null := by
  rw [optionalInt] at h
  split at h
  · next heq =>
      obtain rfl := Option.some.inj h
      exact heq
  · next heq =>
      obtain rfl := Option.some.inj h
      exact heq
  · cases h

/-- A declared field is stored as it was sent. -/
theorem fieldOf_modelDump (h : RouteRule.parse? d = some r) :
    ∀ key ∈ ruleFields, fieldOf key r.modelDump = fieldOf key d := by
  simp only [RouteRule.parse?, Option.bind_eq_bind, Option.bind_eq_some_iff, Option.pure_def,
    Option.some.injEq] at h
  obtain ⟨type, ⟨t, hget, ht⟩, id, hid, threshold, hthreshold, gtLabel, hgt, lteLabel, hlte,
    pattern, hpattern, label, hlabel, rfl⟩ := h
  have htype : fieldOf (str "type") d = .str type := by
    obtain ⟨fields, rfl⟩ := Json.eq_obj_of_get? hget
    rw [Json.get?_obj] at hget
    rw [fieldOf, hget]
    cases t <;> cases ht
    rfl
  have hobj : ∀ key fields, fieldOf key (.obj fields) = (Json.lookup key fields).getD .null :=
    fun _ _ => rfl
  simp only [ruleFields, List.forall_mem_cons, List.not_mem_nil, false_imp_iff, implies_true,
    and_true]
  rw [htype, fieldOf_optionalText hid, fieldOf_optionalInt hthreshold, fieldOf_optionalText hgt,
    fieldOf_optionalText hlte, fieldOf_optionalText hpattern, fieldOf_optionalText hlabel]
  simp +decide [hobj, RouteRule.modelDump, Json.lookup_append, Json.lookup_cons,
    lookup_optional]

/-- The countries of a geo rule are not stored. -/
theorem countries_modelDump (r : RouteRule) : fieldOf (str "countries") r.modelDump = .null := by
  have hobj : ∀ key fields, fieldOf key (.obj fields) = (Json.lookup key fields).getD .null :=
    fun _ _ => rfl
  simp +decide [hobj, RouteRule.modelDump, Json.lookup_append, Json.lookup_cons,
    lookup_optional]

/-! ### What the stored rules decide -/

variable {tools : RuleTools} {ctx : RuleContext}

/-- A rule that looks at the country of the client. -/
def isGeo (rule : Json) : Bool := fieldOf (str "type") rule = .str (str "geo")

/-- A rule of another type gives the label it was sent to give. -/
theorem ruleLabel_modelDump (h : RouteRule.parse? d = some r) (hgeo : isGeo d = false) :
    ruleLabel tools ctx r.modelDump = ruleLabel tools ctx d := by
  have hfields := fieldOf_modelDump h
  simp only [ruleFields, List.forall_mem_cons, List.not_mem_nil, false_imp_iff, implies_true,
    and_true] at hfields
  obtain ⟨htype, hid, hthreshold, hgt, hlte, hpattern, hlabel⟩ := hfields
  rw [ruleLabel, ruleLabel, htype]
  cases hev : (textOf (fieldOf (str "type") d)).bind fun type =>
      (ruleEvaluators tools).lookup type with
  | none => rfl
  | some ev =>
      obtain ⟨type, htext, hlookup⟩ := Option.bind_eq_some_iff.mp hev
      have hsame : ev r.modelDump ctx = ev d ctx := by
        have hmem := lookup_mem hlookup
        simp only [ruleEvaluators, List.mem_cons, List.not_mem_nil, or_false, Prod.mk.injEq] at hmem
        obtain ⟨-, rfl⟩ | ⟨-, rfl⟩ | ⟨-, rfl⟩ | ⟨-, rfl⟩ | ⟨rfl, -⟩ := hmem
        · rw [evalPreset, evalPreset, hid, hlabel]
        · rw [evalTokens, evalTokens, hthreshold, hgt, hlte]
        · rw [evalKeyword, evalKeyword, hpattern, hlabel]
        · rw [evalCodeBlock, evalCodeBlock, hlabel]
        · rw [isGeo, decide_eq_false_iff_not] at hgeo
          refine absurd ?_ hgeo
          cases hvalue : fieldOf (str "type") d with
          | str s =>
              rw [hvalue, textOf] at htext
              split_ifs at htext
              rw [Option.some.inj htext]
          | _ =>
              rw [hvalue] at htext
              cases htext
      rw [Option.bind_some, Option.bind_some, hsame]

/-- A geo rule without countries gives none. -/
theorem ruleLabel_geo (hgeo : isGeo d = true) (hcountries : fieldOf (str "countries") d = .null) :
    ruleLabel tools ctx d = none := by
  have htype : fieldOf (str "type") d = .str (str "geo") := of_decide_eq_true hgeo
  have hev : (textOf (.str (str "geo"))).bind (fun type => (ruleEvaluators tools).lookup type) =
      some (evalGeo tools) := rfl
  have hnone : evalGeo tools d ctx = some .null := by
    rw [evalGeo, hcountries]
    simp [Json.truthy]
  rw [ruleLabel, htype, hev, Option.bind_some, hnone]
  rfl

/-- The rules that are no geo rules. -/
def withoutGeo (rules : List Json) : List Json := rules.filter fun rule => !isGeo rule

theorem withoutGeo_cons (rule : Json) (rules : List Json) :
    withoutGeo (rule :: rules) =
      if isGeo rule = true then withoutGeo rules else rule :: withoutGeo rules := by
  rw [withoutGeo, List.filter_cons]
  cases isGeo rule <;> rfl

theorem applyRules_cons (rule : Json) (rules : List Json) :
    applyRules tools ctx (rule :: rules) =
      (ruleLabel tools ctx rule).or (applyRules tools ctx rules) := by
  rw [applyRules, List.findSome?_cons]
  cases ruleLabel tools ctx rule <;> rfl

/-- **The stored rules decide as those that were sent, less the geo rules.** -/
theorem applyRules_stored {rules : List Json} {stored : List RouteRule}
    (h : rules.mapM RouteRule.parse? = some stored) :
    applyRules tools ctx (stored.map RouteRule.modelDump) =
      applyRules tools ctx (withoutGeo rules) := by
  induction rules generalizing stored with
  | nil =>
      rw [List.mapM_nil] at h
      obtain rfl := Option.some.inj h
      rfl
  | cons d rules ih =>
      obtain ⟨r, stored, hr, hstored, rfl⟩ := mapM_cons_eq_some.mp h
      rw [List.map_cons, applyRules_cons, ih hstored, withoutGeo_cons]
      split_ifs with hgeo
      · have htype : fieldOf (str "type") r.modelDump = fieldOf (str "type") d :=
          fieldOf_modelDump hr _ List.mem_cons_self
        have hstoredGeo : isGeo r.modelDump = true := by
          rw [isGeo, htype]
          exact hgeo
        rw [ruleLabel_geo hstoredGeo (countries_modelDump r), Option.none_or]
      · rw [applyRules_cons, ruleLabel_modelDump hr (Bool.eq_false_iff.mpr hgeo)]

/-- The first of the other rules that gives a label gives this one. -/
def OthersGive (tools : RuleTools) (ctx : RuleContext) (rules : List Json) (label : Json) : Prop :=
  ∃ before rule after, rules = before ++ rule :: after ∧ isGeo rule = false ∧
    ruleLabel tools ctx rule = some label ∧
    ∀ earlier ∈ before, isGeo earlier = false → ruleLabel tools ctx earlier = none

/-- No geo rule gives the first label, or the other rules after it give the same. -/
def GeoHarmless (tools : RuleTools) (ctx : RuleContext) (rules : List Json) : Prop :=
  ∀ before rule after label, rules = before ++ rule :: after →
    (∀ earlier ∈ before, ruleLabel tools ctx earlier = none) → isGeo rule = true →
    ruleLabel tools ctx rule = some label → OthersGive tools ctx after label

theorem othersGive_iff {rules : List Json} {label : Json} :
    OthersGive tools ctx rules label ↔ applyRules tools ctx (withoutGeo rules) = some label := by
  rw [applyRules, List.findSome?_eq_some_iff, withoutGeo]
  constructor
  · rintro ⟨before, rule, after, rfl, hgeo, hlabel, hbefore⟩
    refine ⟨withoutGeo before, rule, withoutGeo after, ?_, hlabel, fun earlier hmem => ?_⟩
    · simp [withoutGeo, hgeo]
    · obtain ⟨hmem, hother⟩ := List.mem_filter.mp hmem
      exact hbefore earlier hmem (by simpa using hother)
  · rintro ⟨before, rule, after, hsplit, hlabel, hbefore⟩
    obtain ⟨before', rest, rfl, hfirst, hrest⟩ := List.filter_eq_append_iff.mp hsplit
    obtain ⟨skipped, after', rfl, hskipped, hother, -⟩ := List.filter_eq_cons_iff.mp hrest
    refine ⟨before' ++ skipped, rule, after', by simp, by simpa using hother, hlabel, ?_⟩
    intro earlier hmem hgeo
    obtain hmem | hmem := List.mem_append.mp hmem
    · refine hbefore earlier ?_
      rw [← hfirst]
      exact List.mem_filter.mpr ⟨hmem, by simpa using hgeo⟩
    · exact absurd (by simpa using hgeo) (hskipped earlier hmem)

theorem geoHarmless_cons {rule : Json} {rules : List Json} :
    GeoHarmless tools ctx (rule :: rules) ↔
      match ruleLabel tools ctx rule with
      | none => GeoHarmless tools ctx rules
      | some label => isGeo rule = true → OthersGive tools ctx rules label := by
  cases hlabel : ruleLabel tools ctx rule with
  | none =>
      constructor
      · intro h before first after label hsplit hbefore
        refine h (rule :: before) first after label (by rw [hsplit, List.cons_append]) ?_
        exact List.forall_mem_cons.mpr ⟨hlabel, hbefore⟩
      · intro h before first after label hsplit hbefore hgeo hfirst
        cases before with
        | nil =>
            obtain ⟨rfl, rfl⟩ := List.cons.inj hsplit
            cases hlabel.symm.trans hfirst
        | cons earlier before =>
            obtain ⟨rfl, hrest⟩ := List.cons.inj hsplit
            exact h before first after label hrest (List.forall_mem_cons.mp hbefore).2 hgeo hfirst
  | some label =>
      constructor
      · intro h hgeo
        exact h [] rule rules label rfl (by simp) hgeo hlabel
      · intro h before first after label' hsplit hbefore hgeo hfirst
        cases before with
        | nil =>
            obtain ⟨rfl, rfl⟩ := List.cons.inj hsplit
            obtain rfl := Option.some.inj (hlabel.symm.trans hfirst)
            exact h hgeo
        | cons earlier before =>
            obtain ⟨rfl, -⟩ := List.cons.inj hsplit
            cases hlabel.symm.trans (hbefore rule List.mem_cons_self)

/-- Leaving the geo rules out changes nothing exactly when they are harmless. -/
theorem applyRules_withoutGeo_iff (rules : List Json) :
    applyRules tools ctx (withoutGeo rules) = applyRules tools ctx rules ↔
      GeoHarmless tools ctx rules := by
  induction rules with
  | nil =>
      refine iff_of_true rfl fun before rule after label hsplit => ?_
      cases before <;> cases hsplit
  | cons rule rules ih =>
      rw [geoHarmless_cons, withoutGeo_cons, applyRules_cons]
      cases hlabel : ruleLabel tools ctx rule with
      | none =>
          rw [Option.none_or, ← ih]
          split_ifs
          · rfl
          · rw [applyRules_cons, hlabel, Option.none_or]
      | some label =>
          rw [Option.some_or]
          split_ifs with hgeo
          · exact ⟨fun h _ => othersGive_iff.mpr h, fun h => othersGive_iff.mp (h hgeo)⟩
          · rw [applyRules_cons, hlabel, Option.some_or]
            exact iff_of_true rfl fun h => absurd h hgeo

/-- **A route decides by its stored rules as by those it was sent** exactly when no geo rule
gives the first label, or the other rules after it give the same. -/
theorem applyRules_stored_iff (tools : RuleTools) (ctx : RuleContext) (rules : List Json)
    (req : RoutePolicyIn) (scope : RouteScope) (version id : ℤ)
    (h : rules.mapM RouteRule.parse? = some req.smartRules) :
    applyRules tools ctx (toOrm req scope version id).smartRules = applyRules tools ctx rules ↔
      GeoHarmless tools ctx rules := by
  rw [toOrm, applyRules_stored h]
  exact applyRules_withoutGeo_iff rules

end

/-- A search that finds nothing, and a client in Germany. -/
def germanTools : RuleTools :=
  ⟨fun _ _ => some false, id, fun _ => [], fun _ => some (str "DE")⟩

/-- German clients go to one label, and all others to another by a rule about tokens. -/
def germanRules : List Json := [
  .obj [(str "type", .str (str "geo")), (str "countries", .arr [.str (str "DE")]),
    (str "label", .str (str "eu"))],
  .obj [(str "type", .str (str "tokens")), (str "threshold", .int 0),
    (str "gt_label", .str (str "us"))]]

/-- A request with those rules. -/
def germanRoute : Admin.RoutePolicyIn where
  userFacingModel := str "auto"
  smartRules := [⟨str "geo", none, none, none, none, none, some (str "eu")⟩,
    ⟨str "tokens", none, some 0, some (str "us"), none, none, none⟩]

/-- A German prompt. -/
def germanPrompt : RuleContext := ⟨str "Hallo", some (str "192.0.2.1")⟩

/-- The rules that were sent send a German client to `eu`; what is stored of them sends it to
`us`. -/
theorem geo_rule_lost :
    germanRules.mapM Admin.RouteRule.parse? = some germanRoute.smartRules ∧
      applyRules germanTools germanPrompt germanRules = some (.str (str "eu")) ∧
      applyRules germanTools germanPrompt (Admin.toOrm germanRoute .public_ 0 1).smartRules =
        some (.str (str "us")) := by
  decide +kernel

/-- Without its geo rule the list is stored as it is meant. -/
theorem applyRules_stored_tokens :
    applyRules germanTools germanPrompt
        (Admin.toOrm { germanRoute with smartRules := germanRoute.smartRules.tail } .public_ 0
          1).smartRules =
      applyRules germanTools germanPrompt germanRules.tail :=
  (applyRules_stored_iff germanTools germanPrompt germanRules.tail
    { germanRoute with smartRules := germanRoute.smartRules.tail } .public_ 0 1
    (by decide +kernel)).mpr (applyRules_withoutGeo_iff germanRules.tail |>.mp (by decide +kernel))

end Llmxy
