import HueStream.Data.Bridge
import HueStream.Lib.Numbers

/-! # Versions that do not fit

The functions of `Bridge` that read a version, as they are in the source: `std::stoi` throws for a
number that does not fit an `int`, and the exception leaves every function on the way. It is `none`
here. `std::strtol` does not throw, it stops at the bounds of its type. Where the numbers fit, the
functions are the ones that read digits as the natural number they denote. -/

namespace HueStream.Data

open HueStream.Lib

/-- `(\d+)` at the head of a text: the digits, and the text after them. -/
def digitsMatch (s : List Char) : Option (List Char × List Char) :=
  match s.takeWhile Char.isDigit with
  | [] => none
  | ds => some (ds, s.dropWhile Char.isDigit)

/-- `(?:BSB|HSE)(\d+)` at the head of a text: the digits. -/
def modelMatch : List Char → Option (List Char)
  | 'B' :: 'S' :: 'B' :: cs => (digitsMatch cs).map Prod.fst
  | 'H' :: 'S' :: 'E' :: cs => (digitsMatch cs).map Prod.fst
  | _ => none

/-- `(\d+)\.(\d+)\.(\d+)` at the head of a text: the digits of the three numbers. -/
def versionMatch (s : List Char) : Option (List Char × List Char × List Char) := do
  let (major, s) ← digitsMatch s
  guard (s.head? = some '.')
  let (minor, s) ← digitsMatch s.tail
  guard (s.head? = some '.')
  let (build, _) ← digitsMatch s.tail
  return (major, minor, build)

/-- `ApiVersion(version)`: `some none` is an invalid version. -/
def apiVersion? (version : String) : Option (Option (ℤ × ℤ × ℤ)) :=
  match searchLeftmost versionMatch version.toList with
  | none => some none
  | some (major, minor, build) => do return some (← stoi major, ← stoi minor, ← stoi build)

/-- `ApiVersion::operator<`. -/
def versionLt (a b : ℤ × ℤ × ℤ) : Bool :=
  a.1 < b.1 || (a.1 = b.1 && a.2.1 < b.2.1) || (a.1 = b.1 && a.2.1 = b.2.1 && a.2.2 < b.2.2)

/-- `std::strtol` with its bounds. -/
def strtolBounded (s : List Char) : ℤ := max (-2 ^ 63) (min (2 ^ 63 - 1) (strtol s))

namespace Bridge

variable (σ : BridgeSettings)

def isValidModelId? (b : Bridge) : Option Bool :=
  match searchLeftmost modelMatch b.modelId.toList with
  | none => some false
  | some digits => (stoi digits).map fun version => (σ.supportedModel : ℤ) ≤ version

def isConnectable? (b : Bridge) : Option Bool :=
  if b.isFound && b.user ≠ "" && b.isAuthorized then b.isValidModelId? σ else some false

def isConnected? (b : Bridge) : Option Bool := do
  if ← b.isConnectable? σ then return b.isValidIp else return false

def isValidApiVersion? (b : Bridge) : Option Bool := do
  match ← apiVersion? b.apiversion with
  | none => return false
  | some version =>
    let minVersion : ℤ × ℤ × ℤ :=
      (σ.supportedApiVersionMajor, σ.supportedApiVersionMinor, σ.supportedApiVersionBuild)
    return !versionLt version minVersion

def isSupportingClipV2? (b : Bridge) : Option Bool :=
  if b.swversion = "" then some false
  else if σ.supportedClipV2SwVersion ≤ strtolBounded b.swversion.toList then
    if b.modelId = "" then some true else b.isValidModelId? σ
  else some false

/-- `Bridge::GetStatus`. -/
def getStatus? (b : Bridge) : Option BridgeStatus :=
  if b.isEmpty then some .empty
  else if !b.isFound then some .notFound
  else (b.isValidModelId? σ).bind fun isValidModelId =>
  if !isValidModelId then some .invalidModel
  else (b.isConnectable? σ).bind fun isConnectable =>
  if !isConnectable then some .notConnectable
  else (b.isConnected? σ).bind fun isConnected =>
  if !isConnected then some .notConnected
  else (b.isValidApiVersion? σ).bind fun isValidApiVersion =>
  if !isValidApiVersion then some .invalidVersion
  else if !b.isValidClientKey then some .invalidClientkey
  else if b.groups.length = 0 then some .noGroupAvailable
  else match b.getGroup with
    | none => some .invalidGroupSelected
    | some group =>
      if b.isBusy then some .busy
      else if group.active && group.owner = b.appId then some .streaming
      else some .ready

end Bridge

/-! ### Numbers that fit -/

/-- The number in a model id fits an `int`. -/
def modelFits (modelId : String) : Bool :=
  (searchLeftmost modelAt modelId.toList).all fun version => version < 2 ^ 31

/-- The three numbers of a version of the interface fit an `int`. -/
def apiVersionFits (version : String) : Bool :=
  (searchLeftmost versionAt version.toList).all fun v => v.1 < 2 ^ 31 && v.2.1 < 2 ^ 31 && v.2.2 < 2 ^ 31

/-- The number of a software version fits a `long`. -/
def swVersionFits (version : String) : Bool :=
  -2 ^ 63 ≤ strtol version.toList && strtol version.toList ≤ 2 ^ 63 - 1

theorem digitsValue_eq (ds : List Char) : digitsValue ds = Nat.ofDigitChars 10 ds 0 := by
  simp only [digitsValue, Nat.ofDigitChars_eq_foldl, Nat.mul_comm]

theorem searchLeftmost_map {α β : Type} {f : List Char → Option α} {f' : List Char → Option β} {g : α → β}
    (h : ∀ s, f' s = (f s).map g) (s : List Char) :
    searchLeftmost f' s = (searchLeftmost f s).map g := by
  induction s with
  | nil => exact h []
  | cons c s ih =>
    rw [searchLeftmost, searchLeftmost, h, ih]
    cases f (c :: s) <;> rfl

theorem of_searchLeftmost {α : Type} {f : List Char → Option α} {s : List Char} {a : α}
    (h : searchLeftmost f s = some a) : ∃ s', f s' = some a := by
  induction s with
  | nil => exact ⟨[], h⟩
  | cons c s ih =>
    rcases Option.or_eq_some_iff.mp h with h | ⟨-, h⟩
    · exact ⟨_, h⟩
    · exact ih h

/-- What is matched is one digit or more. -/
theorem digitsMatch_digits {s ds rest : List Char} (h : digitsMatch s = some (ds, rest)) :
    ds ≠ [] ∧ ∀ c ∈ ds, c.isDigit = true := by
  unfold digitsMatch at h
  split at h
  · cases h
  · rename_i hne
    obtain ⟨rfl, -⟩ := Prod.mk.inj (Option.some.inj h)
    exact ⟨hne, fun c hc => List.mem_takeWhile_imp hc⟩

theorem digitsAt_eq (s : List Char) :
    digitsAt s = (digitsMatch s).map fun m => (digitsValue m.1, m.2) := by
  unfold digitsAt digitsMatch
  cases s.takeWhile Char.isDigit <;> rfl

theorem modelAt_eq (s : List Char) : modelAt s = (modelMatch s).map digitsValue := by
  have hmap : ∀ cs, (digitsAt cs).map Prod.fst =
      ((digitsMatch cs).map Prod.fst).map digitsValue := by
    intro cs
    rw [digitsAt_eq, Option.map_map, Option.map_map]
    rfl
  unfold modelAt
  split
  · exact hmap _
  · exact hmap _
  · rename_i hbsb hhse
    rw [modelMatch.eq_3 s hbsb hhse]
    rfl

theorem versionAt_eq (s : List Char) : versionAt s =
    (versionMatch s).map fun m => (digitsValue m.1, digitsValue m.2.1, digitsValue m.2.2) := by
  unfold versionAt versionMatch
  simp only [digitsAt_eq]
  cases digitsMatch s with
  | none => rfl
  | some major =>
    by_cases h₁ : major.2.head? = some '.'
    · cases hminor : digitsMatch major.2.tail with
      | none => simp [h₁, hminor]
      | some minor =>
        by_cases h₂ : minor.2.head? = some '.'
        · cases hbuild : digitsMatch minor.2.tail <;> simp [h₁, h₂, hminor, hbuild]
        · simp [h₁, h₂, hminor]
    · simp [h₁]

/-! ### Where nothing throws -/

/-- The number of digits that were matched. -/
theorem stoi_of_match {s ds rest : List Char} (h : digitsMatch s = some (ds, rest)) :
    stoi ds = if digitsValue ds < 2 ^ 31 then some (digitsValue ds : ℤ) else none := by
  obtain ⟨hne, hdigits⟩ := digitsMatch_digits h
  rw [stoi_of_isDigit hne hdigits, digitsValue_eq]

theorem stoi_of_modelMatch {s ds : List Char} (h : modelMatch s = some ds) :
    stoi ds = if digitsValue ds < 2 ^ 31 then some (digitsValue ds : ℤ) else none := by
  unfold modelMatch at h
  split at h
  · obtain ⟨⟨_, rest⟩, hmatch, rfl⟩ := Option.map_eq_some_iff.mp h
    exact stoi_of_match hmatch
  · obtain ⟨⟨_, rest⟩, hmatch, rfl⟩ := Option.map_eq_some_iff.mp h
    exact stoi_of_match hmatch
  · cases h

/-- The three numbers of a match are matches of digits. -/
theorem versionMatch_digits {s : List Char} {v : List Char × List Char × List Char}
    (h : versionMatch s = some v) : (∃ s rest, digitsMatch s = some (v.1, rest)) ∧
      (∃ s rest, digitsMatch s = some (v.2.1, rest)) ∧ ∃ s rest, digitsMatch s = some (v.2.2, rest) := by
  unfold versionMatch at h
  simp only [Option.bind_eq_bind, Option.bind_eq_some_iff, Option.guard_eq_some', Option.pure_def,
    Option.some_inj] at h
  obtain ⟨⟨major, s₁⟩, hmajor, -, -, ⟨minor, s₂⟩, hminor, -, -, ⟨build, s₃⟩, hbuild, rfl⟩ := h
  exact ⟨⟨_, _, hmajor⟩, ⟨_, _, hminor⟩, ⟨_, _, hbuild⟩⟩

/-- A version is read when its three numbers fit. -/
theorem apiVersion?_eq (version : String) : apiVersion? version =
    if apiVersionFits version then
      some ((searchLeftmost versionAt version.toList).map fun v => ((v.1 : ℤ), (v.2.1 : ℤ), (v.2.2 : ℤ)))
    else none := by
  unfold apiVersion? apiVersionFits
  rw [searchLeftmost_map versionAt_eq]
  cases hmatch : searchLeftmost versionMatch version.toList with
  | none => rfl
  | some v =>
    obtain ⟨s, hs⟩ := of_searchLeftmost hmatch
    obtain ⟨⟨_, _, hmajor⟩, ⟨_, _, hminor⟩, ⟨_, _, hbuild⟩⟩ := versionMatch_digits hs
    obtain ⟨major, minor, build⟩ := v
    simp only [stoi_of_match hmajor, stoi_of_match hminor, stoi_of_match hbuild, Option.map_some,
      Option.all_some, Bool.and_eq_true, decide_eq_true_eq]
    by_cases h₁ : digitsValue major < 2 ^ 31
    · by_cases h₂ : digitsValue minor < 2 ^ 31
      · by_cases h₃ : digitsValue build < 2 ^ 31
        · simp only [h₁, h₂, h₃, if_true, and_self]
          rfl
        · simp only [h₁, h₂, h₃, if_true, if_false, and_false]
          rfl
      · simp only [h₁, h₂, if_true, if_false, and_false, false_and]
        rfl
    · simp only [h₁, if_false, false_and]
      rfl

theorem versionLt_cast (a b : ℕ × ℕ × ℕ) :
    versionLt ((a.1 : ℤ), (a.2.1 : ℤ), (a.2.2 : ℤ)) ((b.1 : ℤ), (b.2.1 : ℤ), (b.2.2 : ℤ)) =
      apiVersionLt a b := by
  simp only [versionLt, apiVersionLt, Nat.cast_lt, Nat.cast_inj]

namespace Bridge

variable {σ : BridgeSettings} {b : Bridge}

theorem isValidModelId?_eq : b.isValidModelId? σ =
    if modelFits b.modelId then some (b.isValidModelId σ) else none := by
  unfold isValidModelId? isValidModelId modelFits
  rw [searchLeftmost_map modelAt_eq]
  cases hmatch : searchLeftmost modelMatch b.modelId.toList with
  | none => rfl
  | some ds =>
    obtain ⟨s, hs⟩ := of_searchLeftmost hmatch
    simp only [stoi_of_modelMatch hs, Option.map_some, Option.all_some, decide_eq_true_eq]
    by_cases hfits : digitsValue ds < 2 ^ 31
    · simp only [hfits, if_true, Option.map_some, Nat.cast_le]
    · simp only [hfits, if_false, Option.map_none]

theorem isValidApiVersion?_eq : b.isValidApiVersion? σ =
    if apiVersionFits b.apiversion then some (b.isValidApiVersion σ) else none := by
  unfold isValidApiVersion? isValidApiVersion
  rw [apiVersion?_eq]
  by_cases hfits : apiVersionFits b.apiversion = true
  · rw [if_pos hfits, if_pos hfits]
    cases searchLeftmost versionAt b.apiversion.toList with
    | none => rfl
    | some v =>
      have hlt := versionLt_cast v
        (σ.supportedApiVersionMajor, σ.supportedApiVersionMinor, σ.supportedApiVersionBuild)
      simp only [Option.map_some, Option.bind_eq_bind, Option.bind_some, Option.pure_def, hlt]
  · rw [if_neg hfits, if_neg hfits]
    rfl

/-- **Where the numbers fit the status is the one of the numbers they denote.** -/
theorem getStatus?_eq (hmodel : modelFits b.modelId = true) (hapi : apiVersionFits b.apiversion = true) :
    b.getStatus? σ = some (b.getStatus σ) := by
  have hvalid : b.isValidModelId? σ = some (b.isValidModelId σ) := by
    rw [isValidModelId?_eq, if_pos hmodel]
  have hversion : b.isValidApiVersion? σ = some (b.isValidApiVersion σ) := by
    rw [isValidApiVersion?_eq, if_pos hapi]
  have hconnectable : b.isConnectable? σ = some (b.isConnectable σ) := by
    unfold isConnectable? isConnectable
    rw [hvalid]
    cases b.isFound && b.user ≠ "" && b.isAuthorized <;> rfl
  have hconnected : b.isConnected? σ = some (b.isConnected σ) := by
    unfold isConnected? isConnected
    rw [hconnectable]
    cases b.isConnectable σ <;> rfl
  unfold getStatus? getStatus
  rw [hvalid, hversion, hconnectable, hconnected]
  cases b.getGroup <;> simp only [Option.bind_some, apply_ite some]

/-! ### What is promised about any strings -/

/-- Every function returns, and a version that does not fit is invalid. -/
structure VersionsSound (σ : BridgeSettings) (b : Bridge) : Prop where
  getStatus : (b.getStatus? σ).isSome = true
  isValidModelId : (b.isValidModelId? σ).isSome = true
  isValidApiVersion : (b.isValidApiVersion? σ).isSome = true
  isSupportingClipV2 : (b.isSupportingClipV2? σ).isSome = true
  model : modelFits b.modelId = false → b.isValidModelId? σ = some false
  api : apiVersionFits b.apiversion = false → b.isValidApiVersion? σ = some false
  software : swVersionFits b.swversion = false → b.isSupportingClipV2? σ = some false

/-- A software version that does not fit is taken for one that supports the second version. -/
def takesForClipV2 (σ : BridgeSettings) (b : Bridge) : Bool :=
  !swVersionFits b.swversion && σ.supportedClipV2SwVersion ≤ strtolBounded b.swversion.toList &&
    (b.modelId = "" || b.isValidModelId σ)

theorem swVersionFits_empty : swVersionFits "" = true := by decide

theorem isSupportingClipV2?_eq (hmodel : modelFits b.modelId = true)
    (hsw : swVersionFits b.swversion = false) :
    b.isSupportingClipV2? σ = some (b.takesForClipV2 σ) := by
  have hvalid : b.isValidModelId? σ = some (b.isValidModelId σ) := by
    rw [isValidModelId?_eq, if_pos hmodel]
  have hne : b.swversion ≠ "" := by
    intro heq
    rw [heq, swVersionFits_empty] at hsw
    contradiction
  unfold isSupportingClipV2? takesForClipV2
  rw [if_neg hne, hvalid, hsw]
  by_cases hle : σ.supportedClipV2SwVersion ≤ strtolBounded b.swversion.toList
  · by_cases hempty : b.modelId = "" <;> simp [hle, hempty]
  · simp [hle]

theorem isSome_isSupportingClipV2? (hmodel : modelFits b.modelId = true) :
    (b.isSupportingClipV2? σ).isSome = true := by
  unfold isSupportingClipV2?
  rw [isValidModelId?_eq, if_pos hmodel]
  split_ifs <;> rfl

/-- **The functions return and refuse what does not fit exactly when the numbers of the model and of the
version of the interface fit** and no software version out of bounds is taken for a good one. -/
theorem versionsSound_iff : VersionsSound σ b ↔
    modelFits b.modelId = true ∧ apiVersionFits b.apiversion = true ∧ b.takesForClipV2 σ = false := by
  constructor
  · intro h
    have hmodel : modelFits b.modelId = true := by
      by_contra hnot
      have := h.isValidModelId
      rw [isValidModelId?_eq, if_neg hnot] at this
      contradiction
    have hapi : apiVersionFits b.apiversion = true := by
      by_contra hnot
      have := h.isValidApiVersion
      rw [isValidApiVersion?_eq, if_neg hnot] at this
      contradiction
    refine ⟨hmodel, hapi, ?_⟩
    cases hsw : swVersionFits b.swversion with
    | true => simp [takesForClipV2, hsw]
    | false =>
      have hfalse := h.software hsw
      rw [isSupportingClipV2?_eq hmodel hsw] at hfalse
      exact Option.some.inj hfalse
  · rintro ⟨hmodel, hapi, hsw⟩
    refine ⟨?_, ?_, ?_, isSome_isSupportingClipV2? hmodel, ?_, ?_, fun hnot => ?_⟩
    · rw [getStatus?_eq hmodel hapi]
      rfl
    · rw [isValidModelId?_eq, if_pos hmodel]
      rfl
    · rw [isValidApiVersion?_eq, if_pos hapi]
      rfl
    · intro hnot
      rw [hmodel] at hnot
      contradiction
    · intro hnot
      rw [hapi] at hnot
      contradiction
    · rw [isSupportingClipV2?_eq hmodel hnot, hsw]

end Bridge

end HueStream.Data
