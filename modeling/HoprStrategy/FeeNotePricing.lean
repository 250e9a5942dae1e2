import HoprStrategy.Errors
import HoprStrategy.Library.DecimalText
import Mathlib.Data.List.DropRight

/-!
# The price of a fee note

The relayer quotes gas units and a gas price as strings, and the gateway lists
the prices and decimals of the currencies.  Sums and products of 128-bit
numbers are checked and fail with an error; the operators of the 256-bit
numbers end the program when they overflow.
-/

namespace HoprStrategy.Curvy.Relayer

open Library

abbrev U128 : Type := Word 128

abbrev U256 : Type := Word 256

abbrev Priced (α : Type) : Type := Outcome (StrategyError String) α

/-! ## Numbers in strings -/

inductive FromDecStrErr where
  | invalidCharacter
  | invalidLength
  deriving DecidableEq

def FromDecStrErr.text : FromDecStrErr → String
  | .invalidCharacter => "The character is not in the range 0-9"
  | .invalidLength => "the number is too large for the type"

/-- `U256::from_dec_str`. -/
def fromDecStr (digits : List Char) : Except FromDecStrErr U256 :=
  if ! digits.all Char.isDigit then .error .invalidCharacter
  else
    match parseDigits ⟨0, Nat.two_pow_pos _⟩ digits with
    | .ok value => .ok value
    | .error _ => .error .invalidLength

/-! ## USD prices -/

def priceDecimals : ℕ := 8

/-- The characters which `trim` removes: Unicode's white space. -/
def isWhitespace (char : Char) : Bool :=
  (9 ≤ char.toNat && char.toNat ≤ 13) || char.toNat == 32 ||
    char.toNat == 133 || char.toNat == 160 || char.toNat == 5760 ||
    (8192 ≤ char.toNat && char.toNat ≤ 8202) || char.toNat == 8232 ||
    char.toNat == 8233 || char.toNat == 8239 || char.toNat == 8287 ||
    char.toNat == 12288

def trim (text : String) : List Char :=
  (text.toList.dropWhile isWhitespace).rdropWhile isWhitespace

/-- The digits before the point. -/
def wholeDigits (price : String) : List Char :=
  (trim price).takeWhile (· ≠ '.')

/-- The digits after the point, of which there may be none. -/
def fractionDigits (price : String) : List Char :=
  ((trim price).dropWhile (· ≠ '.')).tail

def isDigits (part : List Char) : Bool :=
  ! part.isEmpty && part.all Char.isDigit

def malformedPrice (price reason : String) : StrategyError String :=
  .other ("malformed USD price " ++ price.quote ++ reason)

def parsePart (price : String) (part : List Char) : Priced U256 :=
  match fromDecStr part with
  | .ok value => .returned value
  | .error error => .failed (malformedPrice price (": " ++ error.text))

/-- A decimal USD price, scaled; places beyond the eighth are truncated. -/
def parseUsdPrice (price : String) : Priced U256 :=
  let whole := wholeDigits price
  let fraction := fractionDigits price
  if ! isDigits whole || ! (fraction.isEmpty || isDigits fraction) then
    .failed (malformedPrice price "")
  else do
    let dollars ← parsePart price whole
    let scale ← .orCrash (Word.exp10 256 priceDecimals)
    let scaledDollars ← .orCrash (dollars.checkedMul scale)
    let places ← parsePart price
      ((fraction.take priceDecimals).rightpad priceDecimals '0')
    let scaled ← .orCrash (scaledDollars.checkedAdd places)
    if scaled.toNat = 0 then
      .failed (.other ("non-positive USD price " ++ price.quote))
    else .returned scaled

structure TokenValuation where
  usd : U256
  decimals : UInt32

/-- `amount` of one token in units of another, rounded up. -/
def convertTokenAmount (amount : U128) (native token : TokenValuation) :
    Priced U128 :=
  if native.usd.toNat = 0 ∨ token.usd.toNat = 0 then
    .failed (.other "token prices must be positive")
  else do
    let valued ← .orCrash (Word.checked 256 (amount.toNat * native.usd.toNat))
    let tokenScale ← .orCrash (Word.exp10 256 token.decimals.toNat)
    let numerator ← .orCrash (valued.checkedMul tokenScale)
    let nativeScale ← .orCrash (Word.exp10 256 native.decimals.toNat)
    let denominator ← .orCrash (nativeScale.checkedMul token.usd)
    let sum ← .orCrash (numerator.checkedAdd denominator)
    let rounded ← .orCrash (sum.checkedSub ⟨1, by norm_num⟩)
    let converted ← .orCrash (rounded.checkedDiv denominator)
    .orFail (.other "the converted fee note amount overflows u128")
      (Word.checked 128 converted.toNat)

/-! ## The quote -/

structure PaymasterInfo where
  submitAggregationGasUnits : String
  gasPriceWei : String
  clientBufferBps : UInt64

def feeNoteHeadroomBps : UInt64 := 10000

namespace PaymasterInfo

def gasUnits (info : PaymasterInfo) : Except ParseIntError U128 :=
  parseUnsigned 128 info.submitAggregationGasUnits

def gasPrice (info : PaymasterInfo) : Except ParseIntError U128 :=
  parseUnsigned 128 info.gasPriceWei

def requiredFee (info : PaymasterInfo) : Priced U128 := do
  let units ← .ofExcept (info.gasUnits.mapError fun error =>
    .other ("relayer quoted an unparseable gas unit count: " ++ error.text))
  let price ← .ofExcept (info.gasPrice.mapError fun error =>
    .other ("relayer quoted an unparseable gas price: " ++ error.text))
  let base ← .orFail (.other "the relayer's gas quote overflows")
    (units.checkedMul price)
  let scaled ← .orFail (.other "the relayer's buffered gas quote overflows")
    (Word.checked 128 (base.toNat * (10000 + info.clientBufferBps.toNat)))
  .orCrash (scaled.checkedDiv ⟨10000, by norm_num⟩)

def requiredFeeInToken (info : PaymasterInfo) (native token : TokenValuation) :
    Priced U128 := do
  let nativeWei ← info.requiredFee
  let converted ← convertTokenAmount nativeWei native token
  let scaled ← .orFail (.other "the fee note headroom overflows")
    (Word.checked 128
      (converted.toNat * (10000 + feeNoteHeadroomBps.toNat)))
  .returned (scaled.divCeil 10000)

end PaymasterInfo

/-! ## What is priced -/

theorem fromDecStr_eq_ok {digits : List Char} {word : U256} :
    fromDecStr digits = .ok word ↔
      digits.all Char.isDigit = true ∧ word.toNat = decimalValue digits := by
  unfold fromDecStr
  by_cases hdigits : digits.all Char.isDigit = true
  · simp only [hdigits, Bool.not_true, Bool.false_eq_true, if_false, true_and]
    split
    · rename_i value hparsed
      have hvalue := (parseDigits_eq_ok.mp hparsed).2
      rw [Except.ok.injEq, Word.ext_iff, hvalue]
      exact eq_comm
    · rename_i error hfailed
      simp only [reduceCtorEq, false_iff]
      intro hword
      rw [parseDigits_eq_ok.mpr ⟨hdigits, hword⟩] at hfailed
      cases hfailed
  · simp [hdigits]

/-- The price which a string denotes, in units of the last of the eight
decimal places and rounded down. -/
def scaledUsd (price : String) : ℕ :=
  decimalValue (wholeDigits price ++ fractionDigits price) *
    10 ^ priceDecimals / 10 ^ (fractionDigits price).length

theorem scaledUsd_eq (price : String) :
    scaledUsd price =
      decimalValue (wholeDigits price) * 10 ^ priceDecimals +
        decimalValue (fractionDigits price) * 10 ^ priceDecimals /
          10 ^ (fractionDigits price).length := by
  rw [scaledUsd, decimalValue_append, Nat.add_mul, Nat.mul_right_comm,
    Nat.mul_comm, Nat.mul_add_div (by positivity)]

def WellFormedPrice (price : String) : Prop :=
  isDigits (wholeDigits price) = true ∧
    ((fractionDigits price).isEmpty || isDigits (fractionDigits price)) = true

theorem WellFormedPrice.whole_all {price : String}
    (hformed : WellFormedPrice price) :
    (wholeDigits price).all Char.isDigit = true := by
  have hwhole := hformed.1
  simp only [isDigits, Bool.and_eq_true] at hwhole
  exact hwhole.2

theorem WellFormedPrice.fraction_all {price : String}
    (hformed : WellFormedPrice price) :
    (fractionDigits price).all Char.isDigit = true := by
  have hfraction := hformed.2
  simp only [isDigits, Bool.or_eq_true, List.isEmpty_iff,
    Bool.and_eq_true] at hfraction
  rcases hfraction with hnone | ⟨_, hall⟩
  · rw [hnone]
    rfl
  · exact hall

theorem parsePart_returned {price : String} {part : List Char} {word : U256} :
    parsePart price part = .returned word ↔
      part.all Char.isDigit = true ∧ word.toNat = decimalValue part := by
  rw [← fromDecStr_eq_ok]
  unfold parsePart
  split
  · rename_i value hparsed
    rw [hparsed, Outcome.returned.injEq, Except.ok.injEq]
  · rename_i error hfailed
    simp [hfailed]

theorem WellFormedPrice.parsePart_places {price : String}
    (hformed : WellFormedPrice price) {word : U256} :
    parsePart price (((fractionDigits price).take priceDecimals).rightpad
        priceDecimals '0') = .returned word ↔
      word.toNat = decimalValue (fractionDigits price) * 10 ^ priceDecimals /
        10 ^ (fractionDigits price).length := by
  rw [parsePart_returned, decimalValue_rightpad _ hformed.fraction_all]
  refine and_iff_right (List.all_eq_true.mpr ?_)
  intro digit hmem
  rcases List.mem_append.mp hmem with htaken | hpadded
  · exact List.all_eq_true.mp hformed.fraction_all digit
      (List.mem_of_mem_take htaken)
  · rw [List.eq_of_mem_replicate hpadded]
    rfl

theorem parseUsdPrice_returned {price : String} {usd : U256}
    (hparsed : parseUsdPrice price = .returned usd) :
    usd.toNat = scaledUsd price ∧ usd.toNat ≠ 0 := by
  by_cases hformed : WellFormedPrice price
  · simp only [parseUsdPrice, hformed.1, hformed.2, Bool.not_true,
      Bool.or_self, Bool.false_eq_true, if_false, Outcome.bind_eq_returned,
      Outcome.orCrash_eq_returned, Word.exp10_eq_some,
      Word.checkedMul_eq_some, Word.checkedAdd_eq_some, parsePart_returned,
      hformed.parsePart_places] at hparsed
    obtain ⟨dollars, ⟨_, hdollars⟩, scale, hscale, scaledDollars,
      hscaledDollars, places, hplaces, scaled, hscaled, hresult⟩ := hparsed
    split at hresult
    · cases hresult
    · rename_i hpositive
      cases hresult
      refine ⟨?_, hpositive⟩
      rw [hscaled, hscaledDollars, hdollars, hscale, hplaces, scaledUsd_eq]
  · have hbranch : (! isDigits (wholeDigits price) ||
        ! ((fractionDigits price).isEmpty ||
          isDigits (fractionDigits price))) = true := by
      rcases not_and_or.mp hformed with hwhole | hfraction
      · rw [Bool.eq_false_of_not_eq_true hwhole]
        rfl
      · rw [Bool.eq_false_of_not_eq_true hfraction, Bool.not_false,
          Bool.or_true]
    rw [parseUsdPrice, if_pos hbranch] at hparsed
    cases hparsed

/-- The price of a well-formed string ends the program when its whole part has
a word and its scaled value has none. -/
theorem parseUsdPrice_crashed {price : String}
    (hformed : WellFormedPrice price)
    (hwhole : decimalValue (wholeDigits price) < 2 ^ 256)
    (hlarge : 2 ^ 256 ≤ scaledUsd price) :
    parseUsdPrice price = .crashed := by
  obtain ⟨dollars, hdollars⟩ : ∃ dollars : U256,
      dollars.toNat = decimalValue (wholeDigits price) := ⟨⟨_, hwhole⟩, rfl⟩
  obtain ⟨scale, hscale⟩ : ∃ scale : U256,
      scale.toNat = 10 ^ priceDecimals := ⟨⟨_, by norm_num [priceDecimals]⟩, rfl⟩
  have hfraction := Nat.div_lt_of_lt_mul
    (Nat.mul_lt_mul_of_pos_right (decimalValue_lt hformed.fraction_all)
      (show 0 < 10 ^ priceDecimals by positivity))
  obtain ⟨places, hplaces⟩ : ∃ places : U256, places.toNat =
      decimalValue (fractionDigits price) * 10 ^ priceDecimals /
        10 ^ (fractionDigits price).length := by
    refine ⟨⟨_, hfraction.trans ?_⟩, rfl⟩
    norm_num [priceDecimals]
  simp only [parseUsdPrice, hformed.1, hformed.2, Bool.not_true, Bool.or_self,
    Bool.false_eq_true, if_false]
  refine Outcome.bind_eq_crashed.mpr (Or.inr ⟨dollars,
    parsePart_returned.mpr ⟨hformed.whole_all, hdollars⟩, ?_⟩)
  rw [Word.exp10_eq_some.mpr hscale, Outcome.orCrash_some_bind,
    Outcome.bind_eq_crashed, Outcome.orCrash_eq_crashed,
    Word.checkedMul_eq_none, hdollars, hscale]
  by_cases hproduct : 2 ^ 256 ≤
      decimalValue (wholeDigits price) * 10 ^ priceDecimals
  · exact Or.inl hproduct
  · refine Or.inr ⟨⟨_, Nat.lt_of_not_le hproduct⟩, ?_, ?_⟩
    · rw [Outcome.orCrash_eq_returned, Word.checkedMul_eq_some, hdollars, hscale]
    · refine Outcome.bind_eq_crashed.mpr (Or.inr ⟨places,
        hformed.parsePart_places.mpr hplaces,
        Outcome.bind_eq_crashed.mpr (Or.inl ?_)⟩)
      rw [Outcome.orCrash_eq_crashed, Word.checkedAdd_eq_none, hplaces,
        ← scaledUsd_eq]
      exact hlarge

/-! ## The conversion -/

def quotedFee (units price buffer : ℕ) : ℕ :=
  units * price * (10000 + buffer) / 10000

def convertedFee (nativeWei : ℕ) (native token : TokenValuation) : ℕ :=
  (nativeWei * native.usd.toNat * 10 ^ token.decimals.toNat) ⌈/⌉
    (10 ^ native.decimals.toNat * token.usd.toNat)

/-- The numbers of a conversion have words of 256 bits. -/
structure ConversionFits (nativeWei : ℕ) (native token : TokenValuation) :
    Prop where
  tokenDecimals : token.decimals.toNat ≤ 77
  sum : nativeWei * native.usd.toNat * 10 ^ token.decimals.toNat +
    10 ^ native.decimals.toNat * token.usd.toNat < 2 ^ 256

variable {native token : TokenValuation} {amount : U128}

theorem fits_of_ne_crashed (hnative : native.usd.toNat ≠ 0)
    (htoken : token.usd.toNat ≠ 0)
    (hruns : convertTokenAmount amount native token ≠ .crashed) :
    ConversionFits amount.toNat native token := by
  simp only [convertTokenAmount, hnative, htoken, or_self, if_false,
    Outcome.orCrash_bind_ne_crashed, Word.checked_eq_some, Word.exp10_eq_some,
    Word.checkedMul_eq_some, Word.checkedAdd_eq_some] at hruns
  obtain ⟨valued, hvalued, tokenScale, htokenScale, numerator, hnumerator,
    nativeScale, hnativeScale, denominator, hdenominator, sum, hsum, _⟩ := hruns
  constructor
  · by_contra! hlarge
    have hpow : 10 ^ 78 ≤ 10 ^ token.decimals.toNat :=
      Nat.pow_le_pow_right (by norm_num) hlarge
    have hbound := tokenScale.bound
    rw [htokenScale] at hbound
    norm_num at hpow hbound
    omega
  · have hbound := sum.bound
    rwa [hsum, hnumerator, hdenominator, hvalued, htokenScale, hnativeScale]
      at hbound

theorem convertTokenAmount_of_fits (hnative : native.usd.toNat ≠ 0)
    (htoken : token.usd.toNat ≠ 0)
    (hfits : ConversionFits amount.toNat native token) :
    convertTokenAmount amount native token =
      .orFail (.other "the converted fee note amount overflows u128")
        (Word.checked 128 (convertedFee amount.toNat native token)) := by
  obtain ⟨hdecimals, hsum⟩ := hfits
  have hdenominator : 0 < 10 ^ native.decimals.toNat * token.usd.toNat :=
    Nat.mul_pos (by positivity) (Nat.pos_of_ne_zero htoken)
  obtain ⟨sum, hsum⟩ : ∃ sum : U256, sum.toNat =
      amount.toNat * native.usd.toNat * 10 ^ token.decimals.toNat +
        10 ^ native.decimals.toNat * token.usd.toNat := ⟨⟨_, hsum⟩, rfl⟩
  have hbound := sum.bound
  obtain ⟨numerator, hnumerator⟩ : ∃ numerator : U256, numerator.toNat =
      amount.toNat * native.usd.toNat * 10 ^ token.decimals.toNat :=
    ⟨⟨_, by omega⟩, rfl⟩
  obtain ⟨denominator, hdenominator'⟩ : ∃ denominator : U256,
      denominator.toNat = 10 ^ native.decimals.toNat * token.usd.toNat :=
    ⟨⟨_, by omega⟩, rfl⟩
  obtain ⟨valued, hvalued⟩ : ∃ valued : U256,
      valued.toNat = amount.toNat * native.usd.toNat := by
    refine ⟨⟨_, lt_of_le_of_lt ?_ numerator.bound⟩, rfl⟩
    rw [hnumerator]
    exact Nat.le_mul_of_pos_right _ (by positivity)
  obtain ⟨nativeScale, hnativeScale⟩ : ∃ nativeScale : U256,
      nativeScale.toNat = 10 ^ native.decimals.toNat := by
    refine ⟨⟨_, lt_of_le_of_lt ?_ denominator.bound⟩, rfl⟩
    rw [hdenominator']
    exact Nat.le_mul_of_pos_right _ (Nat.pos_of_ne_zero htoken)
  obtain ⟨tokenScale, htokenScale⟩ : ∃ tokenScale : U256,
      tokenScale.toNat = 10 ^ token.decimals.toNat := by
    have hpow : 10 ^ token.decimals.toNat ≤ 10 ^ 77 :=
      Nat.pow_le_pow_right (by norm_num) hdecimals
    exact ⟨⟨_, lt_of_le_of_lt hpow (by norm_num)⟩, rfl⟩
  obtain ⟨rounded, hrounded⟩ : ∃ rounded : U256,
      sum.toNat = rounded.toNat + 1 :=
    ⟨⟨sum.toNat - 1, by omega⟩, by simp only; omega⟩
  obtain ⟨converted, hconverted⟩ : ∃ converted : U256,
      converted.toNat = rounded.toNat / denominator.toNat :=
    ⟨⟨_, lt_of_le_of_lt (Nat.div_le_self _ _) rounded.bound⟩, rfl⟩
  have hceil : converted.toNat = convertedFee amount.toNat native token := by
    rw [hconverted, convertedFee, Nat.ceilDiv_eq_add_pred_div]
    congr 1
    omega
  simp only [convertTokenAmount, hnative, htoken, or_self, if_false,
    Word.checked_eq_some.mpr hvalued, Word.exp10_eq_some.mpr htokenScale,
    Word.exp10_eq_some.mpr hnativeScale, Outcome.orCrash_some_bind]
  rw [Word.checkedMul_eq_some.mpr
      (show numerator.toNat = valued.toNat * tokenScale.toNat by
        rw [hnumerator, hvalued, htokenScale]), Outcome.orCrash_some_bind,
    Word.checkedMul_eq_some.mpr
      (show denominator.toNat = nativeScale.toNat * token.usd.toNat by
        rw [hdenominator', hnativeScale]), Outcome.orCrash_some_bind,
    Word.checkedAdd_eq_some.mpr
      (show sum.toNat = numerator.toNat + denominator.toNat by
        rw [hsum, hnumerator, hdenominator']), Outcome.orCrash_some_bind,
    Word.checkedSub_eq_some.mpr
      (show sum.toNat = rounded.toNat + (⟨1, _⟩ : U256).toNat from hrounded),
    Outcome.orCrash_some_bind,
    Word.checkedDiv_eq_some.mpr ⟨by omega, hconverted⟩,
    Outcome.orCrash_some_bind, hceil]

theorem convertTokenAmount_crashed_iff (hnative : native.usd.toNat ≠ 0)
    (htoken : token.usd.toNat ≠ 0) :
    convertTokenAmount amount native token = .crashed ↔
      ¬ ConversionFits amount.toNat native token := by
  constructor
  · intro hcrashed hfits
    rw [convertTokenAmount_of_fits hnative htoken hfits] at hcrashed
    exact Outcome.orFail_ne_crashed hcrashed
  · intro hunfit
    by_contra hruns
    exact hunfit (fits_of_ne_crashed hnative htoken hruns)

theorem convertTokenAmount_eq_returned (hnative : native.usd.toNat ≠ 0)
    (htoken : token.usd.toNat ≠ 0) {converted : U128} :
    convertTokenAmount amount native token = .returned converted ↔
      ConversionFits amount.toNat native token ∧
        converted.toNat = convertedFee amount.toNat native token := by
  by_cases hfits : ConversionFits amount.toNat native token
  · rw [convertTokenAmount_of_fits hnative htoken hfits,
      Outcome.orFail_eq_returned, Word.checked_eq_some, and_iff_right hfits]
  · rw [(convertTokenAmount_crashed_iff hnative htoken).mpr hfits]
    simp [hfits]

theorem ConversionFits.mono {wei larger : ℕ} (hle : wei ≤ larger)
    (hfits : ConversionFits larger native token) :
    ConversionFits wei native token := by
  refine ⟨hfits.tokenDecimals, lt_of_le_of_lt ?_ hfits.sum⟩
  gcongr

theorem convertedFee_mono {wei larger : ℕ} (hle : wei ≤ larger)
    (htoken : token.usd.toNat ≠ 0) :
    convertedFee wei native token ≤ convertedFee larger native token := by
  have hdenominator : 0 < 10 ^ native.decimals.toNat * token.usd.toNat :=
    Nat.mul_pos (by positivity) (Nat.pos_of_ne_zero htoken)
  apply (gc_mul_ceilDiv hdenominator).monotone_l
  gcongr

/-! ## The fee note -/

def feeNoteValue (converted : ℕ) : ℕ := converted * 20000 ⌈/⌉ 10000

theorem feeNoteValue_mono {converted larger : ℕ} (hle : converted ≤ larger) :
    feeNoteValue converted ≤ feeNoteValue larger := by
  apply (gc_mul_ceilDiv (show 0 < 10000 by norm_num)).monotone_l
  gcongr

namespace PaymasterInfo

/-- The strings of the quote are numbers, and the buffered product has a
word. -/
structure Quotes (info : PaymasterInfo) (units price : U128) : Prop where
  gasUnits : info.gasUnits = .ok units
  gasPrice : info.gasPrice = .ok price
  fits : units.toNat * price.toNat * (10000 + info.clientBufferBps.toNat) <
    2 ^ 128

/-- The native wei which the quote asks for. -/
def nativeWei (info : PaymasterInfo) (units price : U128) : ℕ :=
  quotedFee units.toNat price.toNat info.clientBufferBps.toNat

theorem requiredFee_eq_returned {info : PaymasterInfo} {fee : U128} :
    info.requiredFee = .returned fee ↔
      ∃ units price, info.Quotes units price ∧
        fee.toNat = info.nativeWei units price := by
  have hmap : ∀ {parsed : Except ParseIntError U128} {word : U128}
      {message : ParseIntError → StrategyError String},
      parsed.mapError message = .ok word ↔ parsed = .ok word := by
    intro parsed word message
    cases parsed <;> simp [Except.mapError]
  simp only [requiredFee, Outcome.bind_eq_returned,
    Outcome.ofExcept_eq_returned, hmap, Outcome.orFail_eq_returned,
    Outcome.orCrash_eq_returned, Word.checkedMul_eq_some,
    Word.checkedDiv_eq_some, Word.checked_eq_some]
  constructor
  · rintro ⟨units, hunits, price, hprice, base, hbase, scaled, hscaled, _,
      hfee⟩
    rw [hbase] at hscaled
    have hbound := scaled.bound
    rw [hscaled] at hbound hfee
    exact ⟨units, price, ⟨hunits, hprice, hbound⟩, hfee⟩
  · rintro ⟨units, price, hquotes, hfee⟩
    have hbase : units.toNat * price.toNat < 2 ^ 128 :=
      lt_of_le_of_lt (Nat.le_mul_of_pos_right _ (by omega)) hquotes.fits
    exact ⟨units, hquotes.gasUnits, price, hquotes.gasPrice, ⟨_, hbase⟩, rfl,
      ⟨_, hquotes.fits⟩, rfl, by norm_num, hfee⟩

theorem requiredFee_ne_crashed (info : PaymasterInfo) :
    info.requiredFee ≠ .crashed := by
  intro hcrashed
  simp only [requiredFee, Outcome.bind_eq_crashed, Outcome.ofExcept_ne_crashed,
    Outcome.orFail_ne_crashed, Outcome.orCrash_eq_crashed, false_or]
    at hcrashed
  obtain ⟨units, _, price, _, base, _, scaled, _, hnone⟩ := hcrashed
  simp [Word.checkedDiv] at hnone

theorem Quotes.requiredFee {info : PaymasterInfo} {units price : U128}
    (hquotes : info.Quotes units price) :
    ∃ fee, info.requiredFee = .returned fee ∧
      fee.toNat = info.nativeWei units price := by
  have hbound : info.nativeWei units price < 2 ^ 128 :=
    lt_of_le_of_lt (Nat.div_le_self _ _) hquotes.fits
  exact ⟨⟨_, hbound⟩,
    requiredFee_eq_returned.mpr ⟨units, price, hquotes, rfl⟩, rfl⟩

/-- The fee note of a quote is priced by the formula, or refused. -/
def PricedExactly (info : PaymasterInfo) (native token : TokenValuation) :
    Prop :=
  (∃ error, info.requiredFeeInToken native token = .failed error) ∨
    ∃ units price fee, info.Quotes units price ∧
      info.requiredFeeInToken native token = .returned fee ∧
      fee.toNat = feeNoteValue
        (convertedFee (info.nativeWei units price) native token)

theorem requiredFeeInToken_eq_returned {info : PaymasterInfo} {fee : U128}
    (hnative : native.usd.toNat ≠ 0) (htoken : token.usd.toNat ≠ 0) :
    info.requiredFeeInToken native token = .returned fee ↔
      ∃ units price, info.Quotes units price ∧
        ConversionFits (info.nativeWei units price) native token ∧
        convertedFee (info.nativeWei units price) native token * 20000 <
          2 ^ 128 ∧
        fee.toNat = feeNoteValue
          (convertedFee (info.nativeWei units price) native token) := by
  have hbps : 10000 + feeNoteHeadroomBps.toNat = 20000 := by decide
  simp only [requiredFeeInToken, Outcome.bind_eq_returned,
    requiredFee_eq_returned, convertTokenAmount_eq_returned hnative htoken,
    Outcome.orFail_eq_returned, Word.checked_eq_some, hbps,
    Outcome.returned.injEq]
  constructor
  · rintro ⟨wei, ⟨units, price, hquotes, hwei⟩, converted, ⟨hfits, hconverted⟩,
      scaled, hscaled, rfl⟩
    rw [hwei] at hfits hconverted
    rw [hconverted] at hscaled
    have hbound := scaled.bound
    rw [hscaled] at hbound
    refine ⟨units, price, hquotes, hfits, hbound, ?_⟩
    rw [feeNoteValue, ← hscaled]
    rfl
  · rintro ⟨units, price, hquotes, hfits, hscaled, hfee⟩
    have hwei : info.nativeWei units price < 2 ^ 128 :=
      lt_of_le_of_lt (Nat.div_le_self _ _) hquotes.fits
    exact ⟨⟨_, hwei⟩, ⟨units, price, hquotes, rfl⟩,
      ⟨convertedFee (info.nativeWei units price) native token, by omega⟩,
      ⟨hfits, rfl⟩, ⟨_, hscaled⟩, rfl, Word.ext hfee.symm⟩

/-- A quote is priced by the formula or refused exactly when the conversion of
what it asks for fits into the 256-bit numbers. -/
theorem pricedExactly_iff (info : PaymasterInfo)
    (hnative : native.usd.toNat ≠ 0) (htoken : token.usd.toNat ≠ 0) :
    info.PricedExactly native token ↔ ∀ units price, info.Quotes units price →
      ConversionFits (info.nativeWei units price) native token := by
  constructor
  · intro hpriced units price hquotes
    obtain ⟨wei, hfee, hwei⟩ := hquotes.requiredFee
    rw [← hwei]
    by_contra hunfit
    have hcrashed : info.requiredFeeInToken native token = .crashed := by
      have hconversion :=
        (convertTokenAmount_crashed_iff hnative htoken).mpr hunfit
      exact Outcome.bind_eq_crashed.mpr (Or.inr ⟨wei, hfee,
        Outcome.bind_eq_crashed.mpr (Or.inl hconversion)⟩)
    rcases hpriced with ⟨error, hfailed⟩ | ⟨_, _, fee, _, hreturned, _⟩
    · rw [hcrashed] at hfailed
      cases hfailed
    · rw [hcrashed] at hreturned
      cases hreturned
  · intro hfits
    cases hresult : info.requiredFeeInToken native token with
    | failed error => exact Or.inl ⟨error, hresult⟩
    | returned fee =>
        obtain ⟨units, price, hquotes, _, _, hfee⟩ :=
          (requiredFeeInToken_eq_returned hnative htoken).mp hresult
        exact Or.inr ⟨units, price, fee, hquotes, hresult, hfee⟩
    | crashed =>
        rw [requiredFeeInToken, Outcome.bind_eq_crashed] at hresult
        rcases hresult with hquote | ⟨wei, hquote, hrest⟩
        · exact absurd hquote info.requiredFee_ne_crashed
        · obtain ⟨units, price, hquotes, hwei⟩ :=
            requiredFee_eq_returned.mp hquote
          have hfit := hfits units price hquotes
          rw [← hwei] at hfit
          simp only [Outcome.bind_eq_crashed,
            convertTokenAmount_crashed_iff hnative htoken, hfit,
            not_true_eq_false, false_or, Outcome.orFail_ne_crashed,
            reduceCtorEq, and_false, exists_false] at hrest

/-- The quote asks for no more gas, at no higher price and with no larger
buffer. -/
structure AtMost (info larger : PaymasterInfo) : Prop where
  exists_units : ∀ more, larger.gasUnits = .ok more →
    ∃ units, info.gasUnits = .ok units ∧ units.toNat ≤ more.toNat
  exists_price : ∀ more, larger.gasPrice = .ok more →
    ∃ price, info.gasPrice = .ok price ∧ price.toNat ≤ more.toNat
  buffer : info.clientBufferBps ≤ larger.clientBufferBps

theorem AtMost.quotes {info larger : PaymasterInfo} {units price : U128}
    (hmost : info.AtMost larger) (hquotes : larger.Quotes units price) :
    ∃ fewer cheaper, info.Quotes fewer cheaper ∧
      info.nativeWei fewer cheaper ≤ larger.nativeWei units price := by
  obtain ⟨fewer, hfewer, hunits⟩ := hmost.exists_units units hquotes.gasUnits
  obtain ⟨cheaper, hcheaper, hprice⟩ :=
    hmost.exists_price price hquotes.gasPrice
  have hbuffer := UInt64.le_iff_toNat_le.mp hmost.buffer
  have hproduct : fewer.toNat * cheaper.toNat *
      (10000 + info.clientBufferBps.toNat) ≤
      units.toNat * price.toNat * (10000 + larger.clientBufferBps.toNat) := by
    gcongr
  exact ⟨fewer, cheaper,
    ⟨hfewer, hcheaper, lt_of_le_of_lt hproduct hquotes.fits⟩,
    Nat.div_le_div_right hproduct⟩

/-- A quote which asks for less is answered when the larger one is, with a fee
note of no larger value. -/
theorem requiredFeeInToken_mono {info larger : PaymasterInfo} {most : U128}
    (hnative : native.usd.toNat ≠ 0) (htoken : token.usd.toNat ≠ 0)
    (hmost : info.AtMost larger)
    (hlarger : larger.requiredFeeInToken native token = .returned most) :
    ∃ fee, info.requiredFeeInToken native token = .returned fee ∧
      fee.toNat ≤ most.toNat := by
  obtain ⟨units, price, hquotes, hfits, hscaled, hvalue⟩ :=
    (requiredFeeInToken_eq_returned hnative htoken).mp hlarger
  obtain ⟨fewer, cheaper, hquotes', hwei⟩ := hmost.quotes hquotes
  have hconverted := @convertedFee_mono native token _ _ hwei htoken
  have hvalue' := feeNoteValue_mono hconverted
  rw [← hvalue] at hvalue'
  refine ⟨⟨_, lt_of_le_of_lt hvalue' most.bound⟩, ?_, hvalue'⟩
  refine (requiredFeeInToken_eq_returned hnative htoken).mpr
    ⟨fewer, cheaper, hquotes', hfits.mono hwei, lt_of_le_of_lt ?_ hscaled, rfl⟩
  gcongr

end PaymasterInfo

open PaymasterInfo in
/-- For prices which are accepted, a quote of whatever strings is priced by the
formula or refused exactly when its conversion fits, and what is priced grows
with the quote. -/
theorem feeNotePricing_exact_iff (nativePrice tokenPrice : String)
    (nativeUsd tokenUsd : U256)
    (hnative : parseUsdPrice nativePrice = .returned nativeUsd)
    (htoken : parseUsdPrice tokenPrice = .returned tokenUsd) :
    nativeUsd.toNat = scaledUsd nativePrice ∧
      tokenUsd.toNat = scaledUsd tokenPrice ∧
      ∀ nativeDecimals tokenDecimals : UInt32,
        let native : TokenValuation := ⟨nativeUsd, nativeDecimals⟩
        let token : TokenValuation := ⟨tokenUsd, tokenDecimals⟩
        (∀ info : PaymasterInfo, info.PricedExactly native token ↔
          ∀ units price, info.Quotes units price →
            ConversionFits (info.nativeWei units price) native token) ∧
        ∀ (info larger : PaymasterInfo) (most : U128), info.AtMost larger →
          larger.requiredFeeInToken native token = .returned most →
          ∃ fee, info.requiredFeeInToken native token = .returned fee ∧
            fee.toNat ≤ most.toNat := by
  obtain ⟨hnativeUsd, hnativeZero⟩ := parseUsdPrice_returned hnative
  obtain ⟨htokenUsd, htokenZero⟩ := parseUsdPrice_returned htoken
  refine ⟨hnativeUsd, htokenUsd, ?_⟩
  intro nativeDecimals tokenDecimals native token
  constructor
  · intro info
    exact info.pricedExactly_iff hnativeZero htokenZero
  · intro info larger most hmost hlarger
    exact requiredFeeInToken_mono hnativeZero htokenZero hmost hlarger

/-- A quote of 675000 gas at 1 gwei. -/
def gweiQuote : PaymasterInfo := ⟨"675000", "1000000000", 0⟩

def dollar : U256 := ⟨100000000, by norm_num⟩

theorem parseUsdPrice_one : parseUsdPrice "1" = .returned dollar := by
  decide +kernel

theorem feeNotePricing_exact_iff_dollar :
    gweiQuote.PricedExactly ⟨dollar, 18⟩ ⟨dollar, 18⟩ := by
  have hexact := feeNotePricing_exact_iff "1" "1" dollar dollar
    parseUsdPrice_one parseUsdPrice_one
  refine ((hexact.2.2 18 18).1 gweiQuote).mpr ?_
  intro units price hquotes
  have hunits : gweiQuote.gasUnits = .ok ⟨675000, by norm_num⟩ := rfl
  have hprice : gweiQuote.gasPrice = .ok ⟨1000000000, by norm_num⟩ := rfl
  cases hunits.symm.trans hquotes.gasUnits
  cases hprice.symm.trans hquotes.gasPrice
  constructor
  · decide
  · decide

/-- With 78 decimals the power of ten has no 256-bit word. -/
theorem feeNotePricing_crashes :
    ¬ ∀ (info : PaymasterInfo) (nativePrice tokenPrice : String)
      (nativeUsd tokenUsd : U256) (nativeDecimals tokenDecimals : UInt32),
      parseUsdPrice nativePrice = .returned nativeUsd →
      parseUsdPrice tokenPrice = .returned tokenUsd →
      info.PricedExactly ⟨nativeUsd, nativeDecimals⟩
        ⟨tokenUsd, tokenDecimals⟩ := by
  intro hclaim
  have hcrashed : gweiQuote.requiredFeeInToken ⟨dollar, 78⟩ ⟨dollar, 18⟩ =
      .crashed := rfl
  rcases hclaim gweiQuote "1" "1" dollar dollar 78 18 parseUsdPrice_one
    parseUsdPrice_one with ⟨error, hfailed⟩ | ⟨_, _, fee, _, hreturned, _⟩
  · rw [hcrashed] at hfailed
    cases hfailed
  · rw [hcrashed] at hreturned
    cases hreturned

end HoprStrategy.Curvy.Relayer
