import Llmxy.Lib.Text

/-!
# JSON

`json.loads` with the values it builds.  A dictionary is the list of its items in
insertion order; a repeated key keeps its place and takes the last value.  A number
with a fraction or an exponent is the nearest double, kept exactly.

The parsers take a bound on their recursion.  Every level reads a character, so the
bound of `loads` is never reached (`loads_eq`).

## Main definitions

* `Json` — values, `Json.truthy` — their truth value, `Json.get?` — `d.get(key)`.
* `roundToDouble` — the double nearest to a fraction.
* `parseValue`, `loads` — the parser.
* `Json.toInt?` — `int(x)`.
-/

namespace Llmxy

/-- A value of `json.loads`. -/
inductive Json where
  | null
  | bool (b : Bool)
  | int (n : ℤ)
  /-- The double `± mantissa * 2 ^ exponent`. -/
  | float (negative : Bool) (mantissa : ℕ) (exponent : ℤ)
  | infinity (negative : Bool)
  | nan
  | str (s : Str)
  | arr (xs : List Json)
  | obj (fields : List (Str × Json))

namespace Json

/-- `bool(x)`. -/
def truthy : Json → Bool
  | null => false
  | bool b => b
  | int n => n ≠ 0
  | float _ m _ => m ≠ 0
  | infinity _ => true
  | nan => true
  | str s => !s.isEmpty
  | arr xs => !xs.isEmpty
  | obj fs => !fs.isEmpty

/-- The value of a key among the items of a dictionary. -/
def lookup (key : Str) (fields : List (Str × Json)) : Option Json :=
  (fields.find? fun f => f.1 = key).map Prod.snd

/-- The value of a key of a dictionary. -/
def get? (key : Str) : Json → Option Json
  | obj fields => lookup key fields
  | _ => none

/-- `d[key] = v` on the items of a dictionary. -/
def insert (key : Str) (v : Json) : List (Str × Json) → List (Str × Json)
  | [] => [(key, v)]
  | f :: fs => if f.1 = key then (key, v) :: fs else f :: insert key v fs

/-- `int(x)`, `none` when it raises. -/
def toInt? : Json → Option ℤ
  | bool b => some (if b then 1 else 0)
  | int n => some n
  | float neg m e =>
      let n : ℤ := if 0 ≤ e then m * 2 ^ e.toNat else ((m / 2 ^ (-e).toNat : ℕ) : ℤ)
      some (if neg then -n else n)
  | str s => parseInt s
  | _ => none

/-- `str(v)`, with `repr` for a float, a list or a dictionary. -/
def toStr (repr : Json → Str) : Json → Str
  | str s => s
  | null => Llmxy.str "None"
  | bool b => if b then Llmxy.str "True" else Llmxy.str "False"
  | int n => showInt n
  | v => repr v

mutual

/-- Are two values the same? -/
def beq : Json → Json → Bool
  | null, null => true
  | bool a, bool b => a = b
  | int a, int b => a = b
  | float n m e, float n' m' e' => n = n' && m = m' && e = e'
  | infinity a, infinity b => a = b
  | nan, nan => true
  | str a, str b => a = b
  | arr xs, arr ys => beqElements xs ys
  | obj fs, obj gs => beqFields fs gs
  | _, _ => false

def beqElements : List Json → List Json → Bool
  | [], [] => true
  | x :: xs, y :: ys => beq x y && beqElements xs ys
  | _, _ => false

def beqFields : List (Str × Json) → List (Str × Json) → Bool
  | [], [] => true
  | (k, x) :: fs, (l, y) :: gs => k = l && beq x y && beqFields fs gs
  | _, _ => false

end

mutual

theorem beq_iff : ∀ a b : Json, beq a b = true ↔ a = b
  | null, b => by cases b <;> simp [beq]
  | bool _, b => by cases b <;> simp [beq]
  | int _, b => by cases b <;> simp [beq]
  | float _ _ _, b => by cases b <;> simp [beq, and_assoc]
  | infinity _, b => by cases b <;> simp [beq]
  | nan, b => by cases b <;> simp [beq]
  | str _, b => by cases b <;> simp [beq]
  | arr xs, b => by cases b <;> simp [beq, beqElements_iff xs]
  | obj fs, b => by cases b <;> simp [beq, beqFields_iff fs]

theorem beqElements_iff : ∀ xs ys : List Json, beqElements xs ys = true ↔ xs = ys
  | [], ys => by cases ys <;> simp [beqElements]
  | x :: xs, ys => by cases ys <;> simp [beqElements, beq_iff x, beqElements_iff xs]

theorem beqFields_iff : ∀ fs gs : List (Str × Json), beqFields fs gs = true ↔ fs = gs
  | [], gs => by cases gs <;> simp [beqFields]
  | (k, x) :: fs, gs => by
      cases gs with
      | nil => simp [beqFields]
      | cons g gs =>
          obtain ⟨l, y⟩ := g
          simp [beqFields, beq_iff x, beqFields_iff fs]

end

instance : DecidableEq Json := fun a b => decidable_of_iff _ (beq_iff a b)
end Json

/-- The double nearest to `n / d`, ties to even, as `(mantissa, exponent)`.  `none`
when it overflows. -/
def roundToDouble (n d : ℕ) : Option (ℕ × ℤ) :=
  if n = 0 then some (0, 0)
  else
    let scaled (e : ℤ) : ℕ × ℕ := (n * 2 ^ (-e).toNat, d * 2 ^ e.toNat)
    let e₀ : ℤ := (n.log2 : ℤ) - d.log2 - 53
    -- the mantissa has 53 bits unless the number is subnormal
    let e₁ := if 2 ^ 53 ≤ (scaled e₀).1 / (scaled e₀).2 then e₀ + 1 else e₀
    let e := max e₁ (-1074)
    let q := (scaled e).1 / (scaled e).2
    let r := (scaled e).1 % (scaled e).2
    let m := if (scaled e).2 < 2 * r ∨ ((scaled e).2 = 2 * r ∧ q % 2 = 1) then q + 1 else q
    if 2 ^ 1024 ≤ m * 2 ^ e.toNat then none else some (m, e)

/-- The double of a decimal `m * 10 ^ e` whose digits are `digits` many. -/
def decimalToFloat (negative : Bool) (m : ℕ) (digits : ℕ) (e : ℤ) : Json :=
  -- far outside the range of a double there is nothing to compute
  if m ≠ 0 ∧ 400 < e then .infinity negative
  else if e + digits < -400 then .float negative 0 0
  else
    match roundToDouble (m * 10 ^ e.toNat) (10 ^ (-e).toNat) with
    | some r => .float negative r.1 r.2
    | none => .infinity negative

/-! ### Scanning -/

/-- The white space of JSON. -/
def skipWs (s : Str) : Str := s.dropWhile fun c => c == 32 || c == 9 || c == 10 || c == 13

/-- The digits of `-?(0|[1-9][0-9]*)` after the sign. -/
def scanInteger : Str → Str × Str
  | 48 :: r => ([48], r)
  | r => r.span isAsciiDigit

/-- `(\.[0-9]+)?`. -/
def scanFraction : Str → Str × Str
  | 46 :: r =>
      let f := r.span isAsciiDigit
      if f.1.isEmpty then ([], 46 :: r) else f
  | r => ([], r)

/-- `([eE][-+]?[0-9]+)?`. -/
def scanExponent : Str → Option ℤ × Str
  | [] => (none, [])
  | c :: r =>
      let signed : Bool × Str := match r with
        | 43 :: r => (false, r)
        | 45 :: r => (true, r)
        | r => (false, r)
      let ds := signed.2.span isAsciiDigit
      if (c = 101 ∨ c = 69) ∧ !ds.1.isEmpty then
        (some (if signed.1 then -(natOfDigits ds.1 : ℤ) else natOfDigits ds.1), ds.2)
      else (none, c :: r)

/-- A number.  `none` for a text without digits and for an integer that is too long. -/
def parseNumber (s : Str) : Option (Json × Str) :=
  let signed : Bool × Str := match s with
    | 45 :: r => (true, r)
    | r => (false, r)
  let digits := scanInteger signed.2
  let fraction := scanFraction digits.2
  let exponent := scanExponent fraction.2
  if digits.1.isEmpty then none
  else if fraction.1.isEmpty ∧ exponent.1 = none then
    if maxIntDigits < digits.1.length then none
    else
      let n : ℤ := natOfDigits digits.1
      some (.int (if signed.1 then -n else n), exponent.2)
  else
    let ds := digits.1 ++ fraction.1
    some (decimalToFloat signed.1 (natOfDigits ds) ds.length
      (exponent.1.getD 0 - fraction.1.length), exponent.2)

def hexValue (c : ℕ) : Option ℕ :=
  if 48 ≤ c ∧ c ≤ 57 then some (c - 48)
  else if 65 ≤ c ∧ c ≤ 70 then some (c - 55)
  else if 97 ≤ c ∧ c ≤ 102 then some (c - 87)
  else none

/-- Four hexadecimal digits. -/
def hex4 (a b c d : ℕ) : Option ℕ := do
  some (((← hexValue a) * 16 + (← hexValue b)) * 256 + (← hexValue c) * 16 + (← hexValue d))

/-- The character of a one-letter escape. -/
def unescape : ℕ → Option ℕ
  | 34 => some 34
  | 92 => some 92
  | 47 => some 47
  | 98 => some 8
  | 102 => some 12
  | 110 => some 10
  | 114 => some 13
  | 116 => some 9
  | _ => none

/-- The characters of a string up to the closing quote, with surrogates as escaped. -/
def scanString : Str → Option (Str × Str)
  | [] => none
  | 34 :: r => some ([], r)
  | 92 :: 117 :: a :: b :: c :: d :: r =>
      (hex4 a b c d).bind fun x => (scanString r).map fun t => (x :: t.1, t.2)
  | 92 :: c :: r =>
      (unescape c).bind fun x => (scanString r).map fun t => (x :: t.1, t.2)
  | c :: r => if c < 32 then none else (scanString r).map fun t => (c :: t.1, t.2)

/-- Join the surrogate pairs.  A decoded text has no surrogates of its own. -/
def pairSurrogates : Str → Str
  | h :: l :: s =>
      if 0xD800 ≤ h ∧ h ≤ 0xDBFF ∧ 0xDC00 ≤ l ∧ l ≤ 0xDFFF then
        (0x10000 + (h - 0xD800) * 1024 + (l - 0xDC00)) :: pairSurrogates s
      else h :: pairSurrogates (l :: s)
  | s => s

/-- A string after its opening quote. -/
def parseString (s : Str) : Option (Str × Str) :=
  (scanString s).map fun t => (pairSurrogates t.1, t.2)

/-- The words that are values. -/
def literals : List (Str × Json) :=
  [(str "null", .null), (str "true", .bool true), (str "false", .bool false), (str "NaN", .nan),
    (str "Infinity", .infinity false), (str "-Infinity", .infinity true)]

/-- A value that is neither a string, an array nor an object. -/
def parseScalar (s : Str) : Option (Json × Str) :=
  match literals.find? fun l => startsWith l.1 s with
  | some l => some (l.2, s.drop l.1.length)
  | none => parseNumber s

mutual

/-- A value. -/
def parseValue : ℕ → Str → Option (Json × Str)
  | 0, _ => none
  | fuel + 1, s =>
      match s with
      | 34 :: r => (parseString r).map fun t => (.str t.1, t.2)
      | 91 :: r =>
          match skipWs r with
          | 93 :: r => some (.arr [], r)
          | r => (parseElements fuel r).map fun t => (.arr t.1, t.2)
      | 123 :: r =>
          match skipWs r with
          | 125 :: r => some (.obj [], r)
          | r => (parseMembers fuel [] r).map fun t => (.obj t.1, t.2)
      | s => parseScalar s

/-- The elements of an array up to its bracket. -/
def parseElements : ℕ → Str → Option (List Json × Str)
  | 0, _ => none
  | fuel + 1, s =>
      (parseValue fuel s).bind fun v =>
        match skipWs v.2 with
        | 93 :: r => some ([v.1], r)
        | 44 :: r => (parseElements fuel (skipWs r)).map fun t => (v.1 :: t.1, t.2)
        | _ => none

/-- The members of an object up to its brace, after the ones that were read. -/
def parseMembers : ℕ → List (Str × Json) → Str → Option (List (Str × Json) × Str)
  | 0, _, _ => none
  | fuel + 1, fields, s =>
      match s with
      | 34 :: r =>
          (parseString r).bind fun key =>
            match skipWs key.2 with
            | 58 :: r =>
                (parseValue fuel (skipWs r)).bind fun v =>
                  let fields := Json.insert key.1 v.1 fields
                  match skipWs v.2 with
                  | 125 :: r => some (fields, r)
                  | 44 :: r => parseMembers fuel fields (skipWs r)
                  | _ => none
            | _ => none
      | _ => none

end

/-- `json.loads(s)`, `none` when it raises. -/
def loads (s : Str) : Option Json :=
  (parseValue (2 * s.length + 1) (skipWs s)).bind fun v => if skipWs v.2 = [] then some v.1 else none

/-! ### The bound is never reached -/

theorem length_skipWs_le (s : Str) : (skipWs s).length ≤ s.length :=
  (List.dropWhile_suffix _).length_le

theorem length_span_le (p : ℕ → Bool) (s : Str) : (s.span p).2.length ≤ s.length := by
  rw [List.span_eq_takeWhile_dropWhile]
  exact (List.dropWhile_suffix _).length_le

theorem length_scanInteger_le (s : Str) : (scanInteger s).2.length ≤ s.length := by
  unfold scanInteger
  split
  · simp
  · exact length_span_le _ _

theorem length_scanFraction_le (s : Str) : (scanFraction s).2.length ≤ s.length := by
  unfold scanFraction
  split
  · dsimp only
    split_ifs
    · exact le_rfl
    · exact (length_span_le _ _).trans (by simp)
  · exact le_rfl

theorem length_scanExponent_le (s : Str) : (scanExponent s).2.length ≤ s.length := by
  unfold scanExponent
  split
  · exact le_rfl
  · rename_i c r
    have hsigned : (match r with
        | 43 :: r => ((false, r) : Bool × Str)
        | 45 :: r => (true, r)
        | r => (false, r)).2.length ≤ (c :: r).length := by
      split <;> simp <;> omega
    have hspan := (length_span_le isAsciiDigit _).trans hsigned
    dsimp only
    split_ifs
    · exact hspan
    · exact hspan
    · exact Nat.le_refl _

theorem length_parseNumber_le {s : Str} {v : Json × Str} (h : parseNumber s = some v) :
    v.2.length ≤ s.length := by
  have hsign : (match s with
      | 45 :: r => ((true, r) : Bool × Str)
      | r => (false, r)).2.length ≤ s.length := by
    split <;> simp
  have hrest := ((length_scanExponent_le _).trans (length_scanFraction_le _)).trans
    ((length_scanInteger_le _).trans hsign)
  unfold parseNumber at h
  dsimp only at h
  split_ifs at h <;> cases h <;> exact hrest

theorem length_parseScalar_le {s : Str} {v : Json × Str} (h : parseScalar s = some v) :
    v.2.length ≤ s.length := by
  unfold parseScalar at h
  split at h
  · cases h
    simp
  · exact length_parseNumber_le h

theorem length_scanString_le {s : Str} {t : Str × Str} (h : scanString s = some t) :
    t.2.length ≤ s.length := by
  fun_induction scanString s generalizing t with
  | case1 => cases h
  | case2 r => cases h; simp
  | case3 a b c d r ih =>
      obtain ⟨x, -, h⟩ := Option.bind_eq_some_iff.mp h
      obtain ⟨u, hu, rfl⟩ := Option.map_eq_some_iff.mp h
      have := ih hu
      simp only [List.length_cons]
      omega
  | case4 c r _ ih =>
      obtain ⟨x, -, h⟩ := Option.bind_eq_some_iff.mp h
      obtain ⟨u, hu, rfl⟩ := Option.map_eq_some_iff.mp h
      have := ih hu
      simp only [List.length_cons]
      omega
  | case5 => cases h
  | case6 c r _ _ _ hc ih =>
      obtain ⟨u, hu, rfl⟩ := Option.map_eq_some_iff.mp h
      have := ih hu
      simp only [List.length_cons]
      omega

theorem length_parseString_le {s : Str} {t : Str × Str} (h : parseString s = some t) :
    t.2.length ≤ s.length := by
  obtain ⟨u, hu, rfl⟩ := Option.map_eq_some_iff.mp h
  simpa using length_scanString_le hu

/-- The parsers leave no more than they were given. -/
theorem length_parse_le (n : ℕ) :
    (∀ s v, parseValue n s = some v → v.2.length ≤ s.length) ∧
      (∀ s v, parseElements n s = some v → v.2.length ≤ s.length) ∧
      ∀ fields s v, parseMembers n fields s = some v → v.2.length ≤ s.length := by
  induction n with
  | zero => exact ⟨by simp [parseValue], by simp [parseElements], by simp [parseMembers]⟩
  | succ n ih =>
      obtain ⟨hvalue, helements, hmembers⟩ := ih
      refine ⟨fun s v h => ?_, fun s v h => ?_, fun fields s v h => ?_⟩
      · unfold parseValue at h
        split at h
        · obtain ⟨t, ht, rfl⟩ := Option.map_eq_some_iff.mp h
          exact (length_parseString_le ht).trans (by simp)
        · rename_i r
          have hws := length_skipWs_le r
          split at h
          · rename_i r' heq
            cases h
            rw [heq] at hws
            simp only [List.length_cons] at hws ⊢
            omega
          · obtain ⟨t, ht, rfl⟩ := Option.map_eq_some_iff.mp h
            have := helements _ _ ht
            simp only [List.length_cons]
            omega
        · rename_i r
          have hws := length_skipWs_le r
          split at h
          · rename_i r' heq
            cases h
            rw [heq] at hws
            simp only [List.length_cons] at hws ⊢
            omega
          · obtain ⟨t, ht, rfl⟩ := Option.map_eq_some_iff.mp h
            have := hmembers _ _ _ ht
            simp only [List.length_cons]
            omega
        · exact length_parseScalar_le h
      · unfold parseElements at h
        obtain ⟨v₁, hv₁, h⟩ := Option.bind_eq_some_iff.mp h
        have h₁ := hvalue _ _ hv₁
        have hws := length_skipWs_le v₁.2
        split at h
        · rename_i r heq
          cases h
          rw [heq] at hws
          simp only [List.length_cons] at hws ⊢
          omega
        · rename_i r heq
          obtain ⟨t, ht, rfl⟩ := Option.map_eq_some_iff.mp h
          have h₂ := helements _ _ ht
          have hws' := length_skipWs_le r
          rw [heq] at hws
          simp only [List.length_cons] at hws ⊢
          omega
        · cases h
      · unfold parseMembers at h
        split at h
        · obtain ⟨key, hkey, h⟩ := Option.bind_eq_some_iff.mp h
          have h₀ := length_parseString_le hkey
          have hws₀ := length_skipWs_le key.2
          split at h
          · rename_i r heq₀
            obtain ⟨v₁, hv₁, h⟩ := Option.bind_eq_some_iff.mp h
            have h₁ := hvalue _ _ hv₁
            have hws₁ := length_skipWs_le r
            have hws := length_skipWs_le v₁.2
            rw [heq₀] at hws₀
            dsimp only at h
            split at h
            · rename_i r' heq
              cases h
              rw [heq] at hws
              simp only [List.length_cons] at *
              omega
            · rename_i r' heq
              have h₂ := hmembers _ _ _ h
              have hws' := length_skipWs_le r'
              rw [heq] at hws
              simp only [List.length_cons] at *
              omega
            · cases h
          · cases h
        · cases h

/-- **A larger bound changes nothing**: two levels for each character are enough. -/
theorem parse_eq_of_le (n : ℕ) :
    (∀ s m, 2 * s.length + 1 ≤ n → n ≤ m → parseValue m s = parseValue n s) ∧
      (∀ s m, 2 * s.length + 2 ≤ n → n ≤ m → parseElements m s = parseElements n s) ∧
      ∀ fields s m, 2 * s.length + 2 ≤ n → n ≤ m →
        parseMembers m fields s = parseMembers n fields s := by
  induction n with
  | zero => exact ⟨by omega, by omega, by omega⟩
  | succ n ih =>
      obtain ⟨hvalue, helements, hmembers⟩ := ih
      refine ⟨fun s m hs hm => ?_, fun s m hs hm => ?_, fun fields s m hs hm => ?_⟩
      all_goals
        obtain ⟨m, rfl⟩ : ∃ m', m = m' + 1 := ⟨m - 1, by omega⟩
      · unfold parseValue
        split
        · rfl
        · rename_i r
          have hws := length_skipWs_le r
          simp only [List.length_cons] at hs
          split
          · rfl
          · rw [helements _ _ (by omega) (by omega)]
        · rename_i r
          have hws := length_skipWs_le r
          simp only [List.length_cons] at hs
          split
          · rfl
          · rw [hmembers _ _ _ (by omega) (by omega)]
        · rfl
      · unfold parseElements
        rw [hvalue s m (by omega) (by omega)]
        refine Option.bind_congr fun v hv => ?_
        have h₁ := (length_parse_le n).1 _ _ hv
        have hws := length_skipWs_le v.2
        split
        · rfl
        · rename_i r heq
          have hws' := length_skipWs_le r
          rw [heq, List.length_cons] at hws
          rw [helements _ _ (by omega) (by omega)]
        · rfl
      · unfold parseMembers
        split
        · refine Option.bind_congr fun key hkey => ?_
          have h₀ := length_parseString_le hkey
          have hws₀ := length_skipWs_le key.2
          simp only [List.length_cons] at hs
          split
          · rename_i r heq₀
            have hws₁ := length_skipWs_le r
            rw [heq₀, List.length_cons] at hws₀
            rw [hvalue _ m (by omega) (by omega)]
            refine Option.bind_congr fun v hv => ?_
            have h₁ := (length_parse_le n).1 _ _ hv
            have hws := length_skipWs_le v.2
            dsimp only
            split
            · rfl
            · rename_i r' heq
              have hws' := length_skipWs_le r'
              rw [heq, List.length_cons] at hws
              rw [hmembers _ _ _ (by omega) (by omega)]
            · rfl
          · rfl
        · rfl

/-- `loads` parses with any bound that is large enough. -/
theorem loads_eq {s : Str} {n : ℕ} (h : 2 * s.length + 1 ≤ n) :
    loads s = (parseValue n (skipWs s)).bind fun v =>
      if skipWs v.2 = [] then some v.1 else none := by
  have hws := length_skipWs_le s
  have hvalue := (parse_eq_of_le (2 * s.length + 1)).1 (skipWs s) n (by omega) h
  rw [loads, hvalue]

end Llmxy
