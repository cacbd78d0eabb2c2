import ExferHonor.Adapters.TxHex

/-! Which texts the transaction decoder takes for hex. `parseInt` reads a prefix, so a pair of code
units can stand for a byte without being its two lowercase digits. -/
namespace ExferHonor

def isBareHexUnit (unit : UInt16) : Bool :=
  (0x30 ≤ unit && unit ≤ 0x39) || (0x61 ≤ unit && unit ≤ 0x66)

/-- `/^([0-9a-f]{2})*$/` -/
def IsTxHex (text : JsString) : Prop := text.length % 2 = 0 ∧ text.all isBareHexUnit = true

instance (text : JsString) : Decidable (IsTxHex text) := inferInstanceAs (Decidable (_ ∧ _))

/-- The pairs that are read as a byte: two digits of either case, one digit behind white space or a
sign, and one digit in front of something else, unless the two are `0x`. -/
inductive LoosePair : UInt16 → UInt16 → UInt8 → Prop
  | digits {first second high low} (hfirst : hexDigit? first = some high)
      (hsecond : hexDigit? second = some low) : LoosePair first second (.ofNat (16 * high + low))
  | padded {first second digit} (space : isWhiteSpace first = true)
      (hsecond : hexDigit? second = some digit) : LoosePair first second (.ofNat digit)
  | plus {second digit} (hsecond : hexDigit? second = some digit) :
      LoosePair 0x2B second (.ofNat digit)
  | minus {second digit} (hsecond : hexDigit? second = some digit) :
      LoosePair 0x2D second (-.ofNat digit)
  | cut {first second digit} (hfirst : hexDigit? first = some digit)
      (hsecond : hexDigit? second = none)
      (radix : ¬ (first = 0x30 ∧ (second = 0x78 ∨ second = 0x58))) :
      LoosePair first second (.ofNat digit)

inductive LooseHex : JsString → List UInt8 → Prop
  | nil : LooseHex [] []
  | cons {first second byte text bytes} (pair : LoosePair first second byte)
      (rest : LooseHex text bytes) : LooseHex (first :: second :: text) (byte :: bytes)

/-! What `parseInt` reads in a pair. -/

theorem hexDigit?_of_isWhiteSpace {unit : UInt16} (space : isWhiteSpace unit = true) :
    hexDigit? unit = none := by
  unfold isWhiteSpace at space
  unfold hexDigit?
  simp only [Bool.or_eq_true, Bool.and_eq_true, decide_eq_true_eq, beq_iff_eq,
    UInt16.le_iff_toNat_le, ← UInt16.toNat_inj, UInt16.reduceToNat] at space ⊢
  split_ifs <;> first | rfl | omega

theorem hexDigit?_lt {unit : UInt16} {digit : Nat} (hdigit : hexDigit? unit = some digit) :
    digit < 16 := by
  unfold hexDigit? at hdigit
  simp only [UInt16.le_iff_toNat_le, UInt16.reduceToNat] at hdigit
  split_ifs at hdigit <;> simp only [Option.some.injEq] at hdigit <;> omega

theorem isWhiteSpace_of_hexDigit? {unit : UInt16} {digit : Nat}
    (hdigit : hexDigit? unit = some digit) : isWhiteSpace unit = false := by
  rw [Bool.eq_false_iff]
  intro space
  rw [hexDigit?_of_isWhiteSpace space] at hdigit
  contradiction

theorem toUint8_natCast (value : Nat) : toUint8 value = .ofNat value := by
  apply UInt8.toNat_inj.1
  simp only [toUint8, UInt8.toNat_ofNat']
  omega

theorem hexRun_dropRadix_single (unit : UInt16) :
    hexRun (dropRadix [unit]) = (hexDigit? unit).toList := by
  have kept : dropRadix [unit] = [unit] := by
    unfold dropRadix
    split <;> simp_all
  rw [kept, hexRun]
  cases hexDigit? unit <;> rfl

theorem parseInt16_space {first second : UInt16} (space : isWhiteSpace first = true) :
    parseInt16 [first, second] = (hexDigit? second).map fun digit : Nat => (digit : Int) := by
  by_cases both : isWhiteSpace second = true
  · rw [hexDigit?_of_isWhiteSpace both]
    simp [parseInt16, space, both, dropRadix, hexRun]
  · by_cases sign : second = 0x2D ∨ second = 0x2B
    · rcases sign with rfl | rfl <;> simp [parseInt16, space] <;> decide
    · simp only [not_or] at sign
      simp only [parseInt16, space, both, List.dropWhile_cons, if_true, Bool.false_eq_true,
        if_false, List.head?_cons, Option.some.injEq, sign, or_self, hexRun_dropRadix_single]
      cases hexDigit? second <;> simp

theorem parseInt16_signed {sign second : UInt16} (signs : sign = 0x2D ∨ sign = 0x2B) :
    parseInt16 [sign, second] =
      (hexDigit? second).map fun digit : Nat => if sign = 0x2D then -(digit : Int) else digit := by
  have dark : isWhiteSpace sign = false := by rcases signs with rfl | rfl <;> decide
  simp only [parseInt16, List.dropWhile_cons, dark, Bool.false_eq_true, if_false, List.head?_cons,
    Option.some.injEq, signs, if_true, List.tail_cons, hexRun_dropRadix_single]
  cases hexDigit? second
  · simp
  · by_cases minus : sign = 0x2D <;> simp [minus]

theorem parseInt16_plain {first second : UInt16} (dark : isWhiteSpace first = false)
    (unsigned : ¬ (first = 0x2D ∨ first = 0x2B)) :
    parseInt16 [first, second] =
      if first = 0x30 ∧ (second = 0x78 ∨ second = 0x58) then none
      else (hexDigit? first).map fun high : Nat =>
        (((hexDigit? second).elim high fun low => 16 * high + low : Nat) : Int) := by
  by_cases radix : first = 0x30 ∧ (second = 0x78 ∨ second = 0x58)
  · rw [if_pos radix]
    obtain ⟨rfl, rfl | rfl⟩ := radix <;> rfl
  · have kept : dropRadix [first, second] = [first, second] := by
      unfold dropRadix
      split <;> simp_all
    have alone := unsigned
    simp only [not_or] at alone
    simp only [parseInt16, List.dropWhile_cons, dark, Bool.false_eq_true, if_false,
      List.head?_cons, Option.some.injEq, alone, or_self, kept, if_neg radix]
    cases hfirst : hexDigit? first <;> cases hsecond : hexDigit? second <;>
      simp [hexRun, hfirst, hsecond]

theorem toUint8_neg {digit : Nat} (small : digit < 16) :
    toUint8 (-(digit : Int)) = -.ofNat digit := by
  apply UInt8.toNat_inj.1
  simp only [toUint8, UInt8.toNat_neg, UInt8.toNat_ofNat', UInt8.size]
  omega

theorem plain_of_hexDigit? {unit : UInt16} {digit : Nat} (hdigit : hexDigit? unit = some digit) :
    isWhiteSpace unit = false ∧ ¬ (unit = 0x2D ∨ unit = 0x2B) := by
  refine ⟨isWhiteSpace_of_hexDigit? hdigit, ?_⟩
  rintro (rfl | rfl) <;> cases hdigit

theorem loosePair_iff {first second : UInt16} {byte : UInt8} :
    (parseInt16 [first, second]).map toUint8 = some byte ↔ LoosePair first second byte := by
  constructor
  · intro reads
    by_cases space : isWhiteSpace first = true
    · rw [parseInt16_space space] at reads
      simp only [Option.map_map, Option.map_eq_some_iff, Function.comp_apply,
        toUint8_natCast] at reads
      obtain ⟨digit, hsecond, rfl⟩ := reads
      exact .padded space hsecond
    · by_cases signs : first = 0x2D ∨ first = 0x2B
      · rw [parseInt16_signed signs] at reads
        simp only [Option.map_map, Option.map_eq_some_iff, Function.comp_apply] at reads
        obtain ⟨digit, hsecond, rfl⟩ := reads
        rcases signs with rfl | rfl
        · rw [if_pos rfl, toUint8_neg (hexDigit?_lt hsecond)]
          exact .minus hsecond
        · rw [if_neg (by decide), toUint8_natCast]
          exact .plus hsecond
      · rw [parseInt16_plain (Bool.eq_false_iff.2 space) signs] at reads
        split_ifs at reads with radix
        · cases reads
        · simp only [Option.map_map, Option.map_eq_some_iff, Function.comp_apply,
            toUint8_natCast] at reads
          obtain ⟨high, hfirst, rfl⟩ := reads
          cases hsecond : hexDigit? second with
          | none => exact .cut hfirst hsecond radix
          | some low => exact .digits hfirst hsecond
  · intro pair
    cases pair with
    | @digits _ _ high low hfirst hsecond =>
      obtain ⟨dark, unsigned⟩ := plain_of_hexDigit? hfirst
      have radix : ¬ (first = 0x30 ∧ (second = 0x78 ∨ second = 0x58)) := by
        rintro ⟨-, rfl | rfl⟩ <;> cases hsecond
      rw [parseInt16_plain dark unsigned, if_neg radix, hfirst, hsecond]
      exact congrArg some (toUint8_natCast _)
    | padded space hsecond => simp [parseInt16_space space, hsecond, toUint8_natCast]
    | plus hsecond => simp [parseInt16_signed (.inr rfl), hsecond, toUint8_natCast]
    | minus hsecond =>
      simp [parseInt16_signed (.inl rfl), hsecond, toUint8_neg (hexDigit?_lt hsecond)]
    | cut hfirst hsecond radix =>
      obtain ⟨dark, unsigned⟩ := plain_of_hexDigit? hfirst
      simp [parseInt16_plain dark unsigned, radix, hfirst, hsecond, toUint8_natCast]

theorem hexPair_ok_iff {i : Nat} {first second : UInt16} {byte : UInt8} :
    hexPair i [first, second] = .ok byte ↔ LoosePair first second byte := by
  rw [← loosePair_iff]
  unfold hexPair
  cases parseInt16 [first, second] <;> simp

theorem hexPairs_ok_iff {i : Nat} {text : JsString} (even : text.length % 2 = 0)
    {bytes : List UInt8} : hexPairs i text = .ok bytes ↔ LooseHex text bytes := by
  induction i, text using hexPairs.induct generalizing bytes with
  | case1 i first second rest ih =>
    have evenRest : rest.length % 2 = 0 := by
      simp only [List.length_cons] at even
      omega
    rw [hexPairs]
    constructor
    · intro reads
      cases hfirst : hexPair i [first, second] with
      | error e => simp [hfirst, Except.bind] at reads
      | ok byte =>
        cases hrest : hexPairs (i + 1) rest with
        | error e => simp [hfirst, hrest, Except.bind, Except.map] at reads
        | ok others =>
          simp only [hfirst, hrest, Except.bind, Except.map, Except.ok.injEq] at reads
          subst reads
          exact .cons (hexPair_ok_iff.1 hfirst) ((ih evenRest).1 hrest)
    · intro loose
      cases loose with
      | cons pair rest => rw [hexPair_ok_iff.2 pair, Except.bind, (ih evenRest).2 rest, Except.map]
  | case2 i unit => simp at even
  | case3 i =>
    rw [hexPairs]
    constructor
    · rintro ⟨⟩
      exact .nil
    · rintro ⟨⟩
      rfl

theorem LooseHex.even {text : JsString} {bytes : List UInt8} (loose : LooseHex text bytes) :
    text.length % 2 = 0 := by
  induction loose with
  | nil => rfl
  | cons _ _ ih =>
    simp only [List.length_cons]
    omega

theorem hexToBytes_ok_iff {text : JsString} {bytes : List UInt8} :
    hexToBytes text = .ok bytes ↔ LooseHex text bytes := by
  unfold hexToBytes
  split_ifs with odd
  · constructor
    · rintro ⟨⟩
    · exact fun loose => absurd loose.even odd
  · exact hexPairs_ok_iff (not_not.1 odd)

theorem decodeTxHex_ok_iff (text : JsString) (tx : DecodedTx) :
    decodeTxHex text = .ok tx ↔ ∃ (bytes : List UInt8) (body : TxBody), LooseHex text bytes ∧
      body.encode <+: bytes ∧ body.decoded = tx := by
  constructor
  · intro decoded
    cases read : hexToBytes text with
    | error e => simp [decodeTxHex, read, Except.bind] at decoded
    | ok bytes =>
      obtain ⟨body, hbody, starts⟩ := (decodeTxHex_of_bytes read tx).1 decoded
      exact ⟨bytes, body, hexToBytes_ok_iff.1 read, starts, hbody⟩
  · rintro ⟨bytes, body, loose, starts, hbody⟩
    exact (decodeTxHex_of_bytes (hexToBytes_ok_iff.2 loose) tx).2 ⟨body, hbody, starts⟩

/-- Only hex is accepted, if and only if the text is hex or no loose spelling of a body with
anything behind it. -/
theorem decodeTxHex_hex_iff (text : JsString) :
    (∀ tx, decodeTxHex text = .ok tx → IsTxHex text) ↔
      (IsTxHex text ∨ ∀ (bytes : List UInt8) (body : TxBody), LooseHex text bytes →
        ¬ body.encode <+: bytes) := by
  constructor
  · intro strict
    by_contra other
    simp only [not_or, not_forall, not_not] at other
    obtain ⟨loose, bytes, body, spells, starts⟩ := other
    exact loose (strict body.decoded
      ((decodeTxHex_ok_iff text _).2 ⟨bytes, body, spells, starts, rfl⟩))
  · rintro (hex | none) tx decoded
    · exact hex
    · obtain ⟨bytes, body, spells, starts, -⟩ := (decodeTxHex_ok_iff text tx).1 decoded
      exact absurd starts (none bytes body spells)

theorem decodeTxHex_takes_loose :
    decodeTxHex (codeUnits "000000000g") = .ok ⟨[], []⟩ ∧ ¬ IsTxHex (codeUnits "000000000g") := by
  decide +kernel

end ExferHonor
