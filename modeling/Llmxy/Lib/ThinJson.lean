import Llmxy.Lib.CutText
import Llmxy.Lib.JsonKeys

/-!
# JSON texts that have lost characters

A text that `dumps` writes loses characters only within the strings of its value, as its
keys are ASCII: what is left is the text of the value with what is left of its strings.
A character that is not ASCII stands within one of the strings.

## Main definitions

* `Json.Thinned` — a value whose strings have lost characters, `thins_dumps`.
* `StringCut` — a text up to a place within a string, `stringCut_dumps`.
-/

namespace Llmxy
variable {style : DumpStyle}

mutual

/-- The second value is the first with strings that have lost characters. -/
def Json.Thinned : Json → Json → Prop
  | .str s, w => ∃ t, w = .str t ∧ Thins s t
  | .arr xs, w => ∃ ys, w = .arr ys ∧ ThinnedElements xs ys
  | .obj fs, w => ∃ gs, w = .obj gs ∧ ThinnedFields fs gs
  | v, w => w = v

def ThinnedElements : List Json → List Json → Prop
  | [], ys => ys = []
  | x :: xs, ys => ∃ y zs, ys = y :: zs ∧ x.Thinned y ∧ ThinnedElements xs zs

def ThinnedFields : List (Str × Json) → List (Str × Json) → Prop
  | [], gs => gs = []
  | (k, x) :: fs, gs => ∃ y hs, gs = (k, y) :: hs ∧ x.Thinned y ∧ ThinnedFields fs hs

end

/-! ### What is left of a text -/

section Thins
variable {a b e : Str}

theorem Thins.ascii_append (h : Thins (a ++ b) e) (ha : ∀ c ∈ a, c < 128) :
    ∃ e', e = a ++ e' ∧ Thins b e' := by
  obtain ⟨a', b', rfl, ha', hb'⟩ := h.of_append
  exact ⟨b', by rw [ha'.eq_of_ascii ha], hb'⟩

theorem Thins.append_ascii (h : Thins (a ++ b) e) (hb : ∀ c ∈ b, c < 128) :
    ∃ e', e = e' ++ b ∧ Thins a e' := by
  obtain ⟨a', b', rfl, ha', hb'⟩ := h.of_append
  exact ⟨a', by rw [hb'.eq_of_ascii hb], ha'⟩

theorem Thins.ascii_cons {c : ℕ} (h : Thins (c :: b) e) (hc : c < 128) :
    ∃ e', e = c :: e' ∧ Thins b e' :=
  Thins.ascii_append (a := [c]) h (by simpa using hc)

theorem thins_quote {s : Str} (hs : IsText s) (h : Thins (quote style s) e) :
    ∃ s', e = quote style s' ∧ Thins s s' := by
  obtain ⟨e₁, rfl, h₁⟩ := h.ascii_cons (by decide)
  obtain ⟨e₂, rfl, h₂⟩ := h₁.append_ascii (by decide)
  obtain ⟨s', rfl, hs'⟩ := thins_escape hs h₂
  exact ⟨s', rfl, hs'⟩

end Thins

theorem itemSep_ascii : ∀ c ∈ style.itemSep, c < 128 := fun c hc => by
  rcases @written_itemSep style [] c hc with h | ⟨-, -, h, -⟩
  · exact h.2
  · cases h

theorem keySep_ascii : ∀ c ∈ style.keySep, c < 128 := fun c hc => by
  rcases @written_keySep style [] c hc with h | ⟨-, -, h, -⟩
  · exact h.2
  · cases h

theorem quote_ascii {k : Str} (hk : ∀ c ∈ k, c < 128) : ∀ c ∈ quote style k, c < 128 := fun c hc => by
  rcases written_quote (isText_of_ascii hk) hc with h | ⟨-, hbig, hown, -⟩
  · exact h.2
  · have := hk c hown
    omega

/-- A value without strings is written in ASCII. -/
theorem dumps_ascii_of_chars {v : Json} (hv : v.Plain) (hchars : v.chars = []) :
    ∀ c ∈ dumps style v, c < 128 := fun c hc => by
  rcases written_dumps v hv hc with h | ⟨-, -, h, -⟩
  · exact h.2
  · rw [hchars] at h
    cases h

mutual

/-- **A JSON text that has lost characters** is the text of the value whose strings have
lost them. -/
theorem thins_dumps : ∀ (v : Json) {e : Str}, v.Plain → v.AsciiKeys → Thins (dumps style v) e →
    ∃ w, e = dumps style w ∧ v.Thinned w
  | .null, e, hv, _, h => ⟨.null, h.eq_of_ascii (dumps_ascii_of_chars hv rfl), rfl⟩
  | .bool b, e, hv, _, h => ⟨.bool b, h.eq_of_ascii (dumps_ascii_of_chars hv rfl), rfl⟩
  | .int n, e, hv, _, h => ⟨.int n, h.eq_of_ascii (dumps_ascii_of_chars hv rfl), rfl⟩
  | .str s, e, hv, _, h => by
      obtain ⟨s', rfl, hs'⟩ := thins_quote hv h
      exact ⟨.str s', rfl, s', rfl, hs'⟩
  | .arr [], e, hv, _, h =>
      ⟨.arr [], h.eq_of_ascii (dumps_ascii_of_chars hv rfl), [], rfl, rfl⟩
  | .arr (x :: xs), e, ⟨hx, hxs⟩, ⟨hkx, hkxs⟩, h => by
      rw [dumps] at h
      obtain ⟨e₁, rfl, h₁⟩ := h.ascii_cons (by decide)
      obtain ⟨e₂, rfl, h₂⟩ := h₁.append_ascii (by decide)
      obtain ⟨e₃, e₄, rfl, h₃, h₄⟩ := h₂.of_append
      obtain ⟨y, rfl, hy⟩ := thins_dumps x hx hkx h₃
      obtain ⟨ys, rfl, hys⟩ := thins_dumpsMore xs hxs hkxs h₄
      exact ⟨.arr (y :: ys), by rw [dumps], y :: ys, rfl, y, ys, rfl, hy, hys⟩
  | .obj [], e, hv, _, h =>
      ⟨.obj [], h.eq_of_ascii (dumps_ascii_of_chars hv rfl), [], rfl, rfl⟩
  | .obj ((k, x) :: fs), e, ⟨_, _, hx, hfs⟩, ⟨hk, hkx, hkfs⟩, h => by
      rw [dumps] at h
      obtain ⟨e₁, rfl, h₁⟩ := h.ascii_cons (by decide)
      obtain ⟨e₂, rfl, h₂⟩ := h₁.append_ascii (by decide)
      obtain ⟨e₃, e₄, rfl, h₃, h₄⟩ := h₂.of_append
      rw [List.append_assoc] at h₃
      obtain ⟨e₅, rfl, h₅⟩ := h₃.ascii_append (quote_ascii hk)
      obtain ⟨e₆, rfl, h₆⟩ := h₅.ascii_append keySep_ascii
      obtain ⟨y, rfl, hy⟩ := thins_dumps x hx hkx h₆
      obtain ⟨gs, rfl, hgs⟩ := thins_dumpsMoreFields fs hfs hkfs h₄
      exact ⟨.obj ((k, y) :: gs), by simp [dumps], (k, y) :: gs, rfl, y, gs, rfl, hy, hgs⟩

theorem thins_dumpsMore : ∀ (xs : List Json) {e : Str}, PlainElements xs → AsciiKeysElements xs →
    Thins (dumpsMore style xs) e → ∃ ys, e = dumpsMore style ys ∧ ThinnedElements xs ys
  | [], e, _, _, h => ⟨[], h.eq_of_ascii (by simp [dumpsMore]), rfl⟩
  | x :: xs, e, ⟨hx, hxs⟩, ⟨hkx, hkxs⟩, h => by
      rw [dumpsMore, List.append_assoc] at h
      obtain ⟨e₁, rfl, h₁⟩ := h.ascii_append itemSep_ascii
      obtain ⟨e₂, e₃, rfl, h₂, h₃⟩ := h₁.of_append
      obtain ⟨y, rfl, hy⟩ := thins_dumps x hx hkx h₂
      obtain ⟨ys, rfl, hys⟩ := thins_dumpsMore xs hxs hkxs h₃
      exact ⟨y :: ys, by simp [dumpsMore], y, ys, rfl, hy, hys⟩

theorem thins_dumpsMoreFields : ∀ (fs : List (Str × Json)) {e : Str}, PlainFields fs →
    AsciiKeysFields fs → Thins (dumpsMoreFields style fs) e →
      ∃ gs, e = dumpsMoreFields style gs ∧ ThinnedFields fs gs
  | [], e, _, _, h => ⟨[], h.eq_of_ascii (by simp [dumpsMoreFields]), rfl⟩
  | (k, x) :: fs, e, ⟨_, _, hx, hfs⟩, ⟨hk, hkx, hkfs⟩, h => by
      rw [dumpsMoreFields] at h
      obtain ⟨e₁, e₂, rfl, h₁, h₂⟩ := h.of_append
      rw [List.append_assoc, List.append_assoc] at h₁
      obtain ⟨e₃, rfl, h₃⟩ := h₁.ascii_append itemSep_ascii
      obtain ⟨e₄, rfl, h₄⟩ := h₃.ascii_append (quote_ascii hk)
      obtain ⟨e₅, rfl, h₅⟩ := h₄.ascii_append keySep_ascii
      obtain ⟨y, rfl, hy⟩ := thins_dumps x hx hkx h₅
      obtain ⟨gs, rfl, hgs⟩ := thins_dumpsMoreFields fs hfs hkfs h₂
      exact ⟨(k, y) :: gs, by simp [dumpsMoreFields], y, gs, rfl, hy, hgs⟩

end

theorem ThinnedFields.keys {fs gs : List (Str × Json)} (h : ThinnedFields fs gs) :
    gs.map Prod.fst = fs.map Prod.fst := by
  induction fs generalizing gs with
  | nil =>
      obtain rfl := h
      rfl
  | cons f fs ih =>
      obtain ⟨y, hs, rfl, -, hfs⟩ := h
      rw [List.map_cons, List.map_cons, ih hfs]

/-- The value of a key, whatever it has lost. -/
theorem ThinnedFields.lookup {fs gs : List (Str × Json)} {key : Str} {x : Json}
    (h : ThinnedFields fs gs) (hx : Json.lookup key fs = some x) :
    ∃ y, Json.lookup key gs = some y ∧ x.Thinned y := by
  induction fs generalizing gs with
  | nil => cases hx
  | cons f fs ih =>
      obtain ⟨y, hs, rfl, hy, hfs⟩ := h
      rw [Json.lookup_cons] at hx ⊢
      by_cases hkey : f.1 = key
      · rw [if_pos hkey, Option.some.injEq] at hx
        subst hx
        exact ⟨y, if_pos hkey, hy⟩
      · rw [if_neg hkey] at hx ⊢
        exact ih hfs hx

/-- The same keys are as new as before. -/
theorem new_of_keys {k : Str} {fs gs : List (Str × Json)}
    (hsame : gs.map Prod.fst = fs.map Prod.fst) (hnew : ∀ f ∈ fs, f.1 ≠ k) : ∀ g ∈ gs, g.1 ≠ k := by
  intro g hg heq
  have hmem := List.mem_map_of_mem (f := Prod.fst) hg
  rw [hsame] at hmem
  obtain ⟨f, hf, hfg⟩ := List.mem_map.mp hmem
  exact hnew f hf (hfg.trans heq)

mutual

/-- Such a value is read back too, and has no other characters. -/
theorem Json.Thinned.clean {own : Str} : ∀ {v w : Json}, v.Thinned w → Clean own v → Clean own w
  | .null, w, h, hv => by
      obtain rfl := h
      exact hv
  | .bool b, w, h, hv => by
      obtain rfl := h
      exact hv
  | .int n, w, h, hv => by
      obtain rfl := h
      exact hv
  | .str s, w, h, hv => by
      obtain ⟨t, rfl, ht⟩ := h
      exact ⟨ht.isText hv.plain, trivial, fun c hc => hv.chars c (ht.sublist.subset hc)⟩
  | .arr xs, w, h, hv => by
      obtain ⟨ys, rfl, hys⟩ := h
      obtain ⟨hplain, hkeys, hchars⟩ := thinnedElements_clean hys hv.plain hv.keys hv.chars
      exact ⟨hplain, hkeys, hchars⟩
  | .obj fs, w, h, hv => by
      obtain ⟨gs, rfl, hgs⟩ := h
      obtain ⟨hplain, hkeys, hchars⟩ := thinnedFields_clean hgs hv.plain hv.keys hv.chars
      exact ⟨hplain, hkeys, hchars⟩
  | .float _ _ _, w, h, hv => absurd hv.plain id
  | .infinity _, w, h, hv => absurd hv.plain id
  | .nan, w, h, hv => absurd hv.plain id

theorem thinnedElements_clean {own : Str} : ∀ {xs ys : List Json}, ThinnedElements xs ys →
    PlainElements xs → AsciiKeysElements xs → (∀ c ∈ charsElements xs, c < 128 ∨ c ∈ own) →
      PlainElements ys ∧ AsciiKeysElements ys ∧ ∀ c ∈ charsElements ys, c < 128 ∨ c ∈ own
  | [], ys, h, _, _, hchars => by
      obtain rfl := h
      exact ⟨trivial, trivial, hchars⟩
  | x :: xs, ys, h, hplain, hkeys, hchars => by
      obtain ⟨y, zs, rfl, hy, hzs⟩ := h
      have hx := hy.clean ⟨hplain.1, hkeys.1, fun c hc => hchars c (List.mem_append_left _ hc)⟩
      obtain ⟨hplain', hkeys', hchars'⟩ := thinnedElements_clean hzs hplain.2 hkeys.2
        fun c hc => hchars c (List.mem_append_right _ hc)
      refine ⟨⟨hx.plain, hplain'⟩, ⟨hx.keys, hkeys'⟩, fun c hc => ?_⟩
      rcases List.mem_append.mp hc with hc | hc
      · exact hx.chars c hc
      · exact hchars' c hc

theorem thinnedFields_clean {own : Str} : ∀ {fs gs : List (Str × Json)}, ThinnedFields fs gs →
    PlainFields fs → AsciiKeysFields fs → (∀ c ∈ charsFields fs, c < 128 ∨ c ∈ own) →
      PlainFields gs ∧ AsciiKeysFields gs ∧ ∀ c ∈ charsFields gs, c < 128 ∨ c ∈ own
  | [], gs, h, _, _, hchars => by
      obtain rfl := h
      exact ⟨trivial, trivial, hchars⟩
  | (k, x) :: fs, gs, h, ⟨hk, hnew, hpx, hpfs⟩, ⟨hkey, hkx, hkfs⟩, hchars => by
      obtain ⟨y, hs, rfl, hy, hhs⟩ := h
      have hx := hy.clean ⟨hpx, hkx, fun c hc => hchars c (by simp [charsFields, hc])⟩
      obtain ⟨hplain', hkeys', hchars'⟩ := thinnedFields_clean hhs hpfs hkfs
        fun c hc => hchars c (List.mem_append_right _ hc)
      refine ⟨⟨hk, new_of_keys hhs.keys hnew, hx.plain, hplain'⟩, ⟨hkey, hx.keys, hkeys'⟩, fun c hc => ?_⟩
      rcases List.mem_append.mp hc with hc | hc
      · rcases List.mem_append.mp hc with hc | hc
        · exact Or.inl (hkey c hc)
        · exact hx.chars c hc
      · exact hchars' c hc

end

/-! ### The string that a character stands in -/

/-- `p` is how a text that `write` writes begins, up to a place within a string. -/
def StringCut {α : Type} (style : DumpStyle) (write : α → Str) (plain : α → Prop) (p : Str) : Prop :=
  ∃ (value : Str → α) (before after s : Str),
    (∀ t, write (value t) = before ++ 34 :: (escape style t ++ after)) ∧
    (∀ t, IsText t → plain (value t)) ∧ IsText s ∧ p = before ++ 34 :: escape style s

theorem StringCut.map {α β : Type} {write : α → Str} {plain : α → Prop} {write' : β → Str}
    {plain' : β → Prop} {p : Str} (c d : Str) (f : α → β) (h : StringCut style write plain p)
    (hwrite : ∀ a, write' (f a) = c ++ (write a ++ d)) (hplain : ∀ a, plain a → plain' (f a)) :
    StringCut style write' plain' (c ++ p) := by
  obtain ⟨value, before, after, s, hvalue, hvplain, hs, rfl⟩ := h
  refine ⟨fun t => f (value t), c ++ before, after ++ d, s, fun t => ?_,
    fun t ht => hplain _ (hvplain t ht), hs, by simp⟩
  rw [hwrite, hvalue]
  simp

/-- What a character of a quoted text stands in. -/
theorem stringCut_quote {s p q : Str} {b : ℕ} (hs : IsText s) (hb : 128 ≤ b)
    (h : quote style s = p ++ b :: q) : StringCut style (dumps style) Json.Plain p := by
  cases p with
  | nil =>
      have := (List.cons.inj h).1
      omega
  | cons c p =>
      obtain ⟨rfl, h'⟩ := List.cons.inj h
      have hquote : b ∉ [34] := by
        rw [List.mem_singleton]
        omega
      obtain ⟨q', hq'⟩ := split_append_left h' hquote
      obtain ⟨s₁, s₂, rfl, rfl, -⟩ := escape_split hs hb hq'
      exact ⟨.str, [], [34], s₁, fun t => by rw [dumps, quote]; rfl, fun t ht => ht,
        fun c hc => hs c (by simp [hc]), rfl⟩

theorem not_mem_of_ascii {a : Str} {b : ℕ} (ha : ∀ c ∈ a, c < 128) (hb : 128 ≤ b) : b ∉ a := fun h => by
  have := ha b h
  omega

mutual

/-- **A character that is not ASCII stands within a string.** -/
theorem stringCut_dumps : ∀ (v : Json) {p q : Str} {b : ℕ}, v.Plain → v.AsciiKeys →
    dumps style v = p ++ b :: q → 128 ≤ b → StringCut style (dumps style) Json.Plain p
  | .null, p, q, b, hv, _, h, hb =>
      absurd (h ▸ by simp) (not_mem_of_ascii (@dumps_ascii_of_chars style .null hv rfl) hb)
  | .bool x, p, q, b, hv, _, h, hb =>
      absurd (h ▸ by simp) (not_mem_of_ascii (@dumps_ascii_of_chars style (.bool x) hv rfl) hb)
  | .int n, p, q, b, hv, _, h, hb =>
      absurd (h ▸ by simp) (not_mem_of_ascii (@dumps_ascii_of_chars style (.int n) hv rfl) hb)
  | .str s, p, q, b, hv, _, h, hb => stringCut_quote hv hb h
  | .arr [], p, q, b, hv, _, h, hb =>
      absurd (h ▸ by simp) (not_mem_of_ascii (@dumps_ascii_of_chars style (.arr []) hv rfl) hb)
  | .arr (x :: xs), p, q, b, ⟨hx, hxs⟩, ⟨hkx, hkxs⟩, h, hb => by
      have htext : [91] ++ (dumps style x ++ (dumpsMore style xs ++ [93])) = p ++ b :: q := by
        rw [← h, dumps]
        simp
      obtain ⟨p', rfl, h'⟩ := split_append_right htext (not_mem_of_ascii (by decide) hb)
      rcases split_append h' with ⟨q', hq'⟩ | ⟨p'', rfl, h''⟩
      · exact .map [91] (dumpsMore style xs ++ [93]) (fun y => .arr (y :: xs))
          (stringCut_dumps x hx hkx hq' hb) (fun y => by simp [dumps]) fun y hy => ⟨hy, hxs⟩
      · obtain ⟨q', hq'⟩ := split_append_left h'' (not_mem_of_ascii (by decide) hb)
        exact .map (91 :: dumps style x) [93] (fun ys => .arr (x :: ys))
          (stringCut_dumpsMore xs hxs hkxs hq' hb) (fun ys => by simp [dumps]) fun ys hys => ⟨hx, hys⟩
  | .obj [], p, q, b, hv, _, h, hb =>
      absurd (h ▸ by simp) (not_mem_of_ascii (@dumps_ascii_of_chars style (.obj []) hv rfl) hb)
  | .obj ((k, x) :: fs), p, q, b, ⟨hk, hnew, hx, hfs⟩, ⟨hkey, hkx, hkfs⟩, h, hb => by
      have htext : (123 :: (quote style k ++ style.keySep)) ++
          (dumps style x ++ (dumpsMoreFields style fs ++ [125])) = p ++ b :: q := by
        rw [← h, dumps]
        simp
      have hhead : ∀ c ∈ 123 :: (quote style k ++ style.keySep), c < 128 := by
        simp only [List.forall_mem_cons, List.forall_mem_append]
        exact ⟨by decide, quote_ascii hkey, keySep_ascii⟩
      obtain ⟨p', rfl, h'⟩ := split_append_right htext (not_mem_of_ascii hhead hb)
      rcases split_append h' with ⟨q', hq'⟩ | ⟨p'', rfl, h''⟩
      · exact .map _ (dumpsMoreFields style fs ++ [125]) (fun y => .obj ((k, y) :: fs))
          (stringCut_dumps x hx hkx hq' hb) (fun y => by simp [dumps])
          fun y hy => ⟨hk, hnew, hy, hfs⟩
      · obtain ⟨q', hq'⟩ := split_append_left h'' (not_mem_of_ascii (by decide) hb)
        have hcut : StringCut style (dumps style) Json.Plain
            (123 :: (quote style k ++ style.keySep ++ dumps style x) ++ p'') :=
          .map _ [125] (fun gs => .obj ((k, x) :: gs)) (stringCut_dumpsMoreFields fs hfs hkfs hq' hb)
            (fun gs => by simp [dumps])
            fun gs ⟨hgs, hsame⟩ => ⟨hk, new_of_keys hsame hnew, hx, hgs⟩
        simpa using hcut

theorem stringCut_dumpsMore : ∀ (xs : List Json) {p q : Str} {b : ℕ}, PlainElements xs →
    AsciiKeysElements xs → dumpsMore style xs = p ++ b :: q → 128 ≤ b →
      StringCut style (dumpsMore style) PlainElements p
  | [], p, q, b, _, _, h, _ => by simp [dumpsMore] at h
  | x :: xs, p, q, b, ⟨hx, hxs⟩, ⟨hkx, hkxs⟩, h, hb => by
      rw [dumpsMore, List.append_assoc] at h
      obtain ⟨p', rfl, h'⟩ := split_append_right h (not_mem_of_ascii itemSep_ascii hb)
      rcases split_append h' with ⟨q', hq'⟩ | ⟨p'', rfl, h''⟩
      · exact .map _ (dumpsMore style xs) (fun y => y :: xs) (stringCut_dumps x hx hkx hq' hb)
          (fun y => by simp [dumpsMore]) fun y hy => ⟨hy, hxs⟩
      · have hcut : StringCut style (dumpsMore style) PlainElements
            (style.itemSep ++ dumps style x ++ p'') :=
          .map _ [] (fun ys => x :: ys) (stringCut_dumpsMore xs hxs hkxs h'' hb)
            (fun ys => by simp [dumpsMore]) fun ys hys => ⟨hx, hys⟩
        rwa [List.append_assoc] at hcut

theorem stringCut_dumpsMoreFields : ∀ (fs : List (Str × Json)) {p q : Str} {b : ℕ},
    PlainFields fs → AsciiKeysFields fs → dumpsMoreFields style fs = p ++ b :: q → 128 ≤ b →
      StringCut style (dumpsMoreFields style)
        (fun gs => PlainFields gs ∧ gs.map Prod.fst = fs.map Prod.fst) p
  | [], p, q, b, _, _, h, _ => by simp [dumpsMoreFields] at h
  | (k, x) :: fs, p, q, b, ⟨hk, hnew, hx, hfs⟩, ⟨hkey, hkx, hkfs⟩, h, hb => by
      have htext : (style.itemSep ++ quote style k ++ style.keySep) ++
          (dumps style x ++ dumpsMoreFields style fs) = p ++ b :: q := by
        rw [← h, dumpsMoreFields]
        simp
      have hhead : ∀ c ∈ style.itemSep ++ quote style k ++ style.keySep, c < 128 := by
        simp only [List.forall_mem_append]
        exact ⟨⟨itemSep_ascii, quote_ascii hkey⟩, keySep_ascii⟩
      obtain ⟨p', rfl, h'⟩ := split_append_right htext (not_mem_of_ascii hhead hb)
      rcases split_append h' with ⟨q', hq'⟩ | ⟨p'', rfl, h''⟩
      · exact .map _ (dumpsMoreFields style fs) (fun y => (k, y) :: fs)
          (stringCut_dumps x hx hkx hq' hb) (fun y => by simp [dumpsMoreFields])
          fun y hy => ⟨⟨hk, hnew, hy, hfs⟩, rfl⟩
      · have hcut : StringCut style (dumpsMoreFields style)
            (fun gs => PlainFields gs ∧ gs.map Prod.fst = k :: fs.map Prod.fst)
            (style.itemSep ++ quote style k ++ style.keySep ++ dumps style x ++ p'') :=
          .map _ [] (fun gs => (k, x) :: gs) (stringCut_dumpsMoreFields fs hfs hkfs h'' hb)
            (fun gs => by simp [dumpsMoreFields])
            fun gs ⟨hgs, hsame⟩ => ⟨⟨hk, new_of_keys hsame hnew, hx, hgs⟩,
              by rw [List.map_cons, hsame]⟩
        simpa using hcut

end

/-- **A text that breaks off within a string is no JSON.** -/
theorem StringCut.loads {p t : Str} (h : StringCut style (dumps style) Json.Plain p)
    (hraw : style.ensureAscii = false) (ht : BrokenOff t) : loads (p ++ t) = none := by
  obtain ⟨value, before, after, s, hvalue, hplain, hs, rfl⟩ := h
  have hole : Hole style value (before ++ [34]) after := fun t => by
    rw [hvalue]
    simp
  have hnone := loads_hole hole hplain hraw hs ht
  simpa using hnone

mutual

/-- A character of a string that is not escaped is in the text. -/
theorem mem_dumps (hraw : style.ensureAscii = false) : ∀ {v : Json} {c : ℕ}, v.AsciiKeys →
    128 ≤ c → c ∈ v.chars → c ∈ dumps style v
  | .str s, c, _, hbig, hc => by
      have hmem : c ∈ escape style s :=
        List.mem_flatMap.mpr ⟨c, hc, by rw [escapeChar_self hraw hbig]; exact List.mem_singleton_self c⟩
      simp [dumps, quote, hmem]
  | .arr [], c, _, _, hc => by cases hc
  | .arr (x :: xs), c, ⟨hkx, hkxs⟩, hbig, hc => by
      rcases List.mem_append.mp hc with hc | hc
      · simp [dumps, mem_dumps hraw hkx hbig hc]
      · simp [dumps, mem_dumpsMore hraw hkxs hbig hc]
  | .obj [], c, _, _, hc => by cases hc
  | .obj ((k, x) :: fs), c, ⟨hk, hkx, hkfs⟩, hbig, hc => by
      rcases List.mem_append.mp hc with hc | hc
      · rcases List.mem_append.mp hc with hc | hc
        · have := hk c hc
          omega
        · simp [dumps, mem_dumps hraw hkx hbig hc]
      · simp [dumps, mem_dumpsMoreFields hraw hkfs hbig hc]

theorem mem_dumpsMore (hraw : style.ensureAscii = false) : ∀ {xs : List Json} {c : ℕ},
    AsciiKeysElements xs → 128 ≤ c → c ∈ charsElements xs → c ∈ dumpsMore style xs
  | [], c, _, _, hc => by cases hc
  | x :: xs, c, ⟨hkx, hkxs⟩, hbig, hc => by
      rcases List.mem_append.mp hc with hc | hc
      · simp [dumpsMore, mem_dumps hraw hkx hbig hc]
      · simp [dumpsMore, mem_dumpsMore hraw hkxs hbig hc]

theorem mem_dumpsMoreFields (hraw : style.ensureAscii = false) : ∀ {fs : List (Str × Json)} {c : ℕ},
    AsciiKeysFields fs → 128 ≤ c → c ∈ charsFields fs → c ∈ dumpsMoreFields style fs
  | [], c, _, _, hc => by cases hc
  | (k, x) :: fs, c, ⟨hk, hkx, hkfs⟩, hbig, hc => by
      rcases List.mem_append.mp hc with hc | hc
      · rcases List.mem_append.mp hc with hc | hc
        · have := hk c hc
          omega
        · simp [dumpsMoreFields, mem_dumps hraw hkx hbig hc]
      · simp [dumpsMoreFields, mem_dumpsMoreFields hraw hkfs hbig hc]

end

end Llmxy
