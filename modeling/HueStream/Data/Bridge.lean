import HueStream.Data.Group

/-! # Bridges and their status

`Bridge.getStatus` decides, in the order of the source, what keeps a bridge from streaming. The
version numbers are read by `std::regex_search` and `std::stoi`; a digit string is read here as the
natural number it denotes, where `std::stoi` throws for one that does not fit an `int`. -/

namespace HueStream.Data

/-- `BridgeSettings`: the oldest bridge the library streams to. -/
structure BridgeSettings where
  supportedApiVersionMajor : ℕ := 1
  supportedApiVersionMinor : ℕ := 24
  supportedApiVersionBuild : ℕ := 0
  supportedModel : ℕ := 2
  supportedClipV2SwVersion : ℤ := 1944193080

/-! ### Reading versions -/

/-- The value of a list of decimal digits. -/
def digitsValue (ds : List Char) : ℕ := ds.foldl (fun n c => n * 10 + (c.toNat - '0'.toNat)) 0

/-- `(\d+)` at the head of a text, and the text after it. -/
def digitsAt (s : List Char) : Option (ℕ × List Char) :=
  match s.takeWhile Char.isDigit with
  | [] => none
  | ds => some (digitsValue ds, s.dropWhile Char.isDigit)

/-- `regex_search`: the leftmost match. -/
def searchLeftmost {α : Type} (matchAt : List Char → Option α) : List Char → Option α
  | [] => matchAt []
  | c :: cs => (matchAt (c :: cs)).or (searchLeftmost matchAt cs)

/-- `(?:BSB|HSE)(\d+)` at the head of a text. -/
def modelAt : List Char → Option ℕ
  | 'B' :: 'S' :: 'B' :: cs => (digitsAt cs).map Prod.fst
  | 'H' :: 'S' :: 'E' :: cs => (digitsAt cs).map Prod.fst
  | _ => none

/-- `(\d+)\.(\d+)\.(\d+)` at the head of a text. -/
def versionAt (s : List Char) : Option (ℕ × ℕ × ℕ) := do
  let (major, s) ← digitsAt s
  guard (s.head? = some '.')
  let (minor, s) ← digitsAt s.tail
  guard (s.head? = some '.')
  let (build, _) ← digitsAt s.tail
  return (major, minor, build)

/-- `ApiVersion::operator<` on the three numbers. -/
def apiVersionLt (a b : ℕ × ℕ × ℕ) : Bool :=
  a.1 < b.1 || (a.1 = b.1 && a.2.1 < b.2.1) || (a.1 = b.1 && a.2.1 = b.2.1 && a.2.2 < b.2.2)

/-- `std::strtol(s, nullptr, 10)`: white space, a sign, the digits that follow. -/
def strtol (s : List Char) : ℤ :=
  match s.dropWhile fun c => c = ' ' || ('\t' ≤ c && c ≤ '\r') with
  | '-' :: cs => -(digitsValue (cs.takeWhile Char.isDigit) : ℤ)
  | '+' :: cs => digitsValue (cs.takeWhile Char.isDigit)
  | cs => digitsValue (cs.takeWhile Char.isDigit)

/-! ### Bridges -/

/-- `NO_SELECTED_GROUP`. -/
def noSelectedGroup : String := "___NO_SELECTED_GROUP___"

/-- A bridge, with the values `Bridge(bridgeSettings)` gives. -/
structure Bridge where
  name : String := ""
  modelId : String := ""
  apiversion : String := ""
  swversion : String := ""
  id : String := ""
  ipAddress : String := ""
  sslPort : String := ""
  isValidIp : Bool := false
  isAuthorized : Bool := false
  isBusy : Bool := false
  clientKey : String := ""
  user : String := ""
  groups : List Group := []
  zones : List Zone := []
  selectedGroup : String := noSelectedGroup
  maxNoStreamingSessions : ℤ := 0
  certificate : String := ""
  appId : String := ""

/-- `BridgeStatus`. -/
inductive BridgeStatus
  | empty | notFound | invalidModel | notConnectable | notConnected | invalidVersion
  | invalidClientkey | noGroupAvailable | invalidGroupSelected | busy | ready | streaming
deriving DecidableEq

namespace Bridge

/-- `Bridge::Clear`. -/
def clear (b : Bridge) : Bridge :=
  { b with
    name := "", isAuthorized := false, isValidIp := false, isBusy := false, user := "", appId := "",
    id := "", ipAddress := "", apiversion := "", modelId := "", clientKey := "",
    selectedGroup := "", groups := [], zones := [] }

/-- `Bridge::Clone`. -/
def clone (b : Bridge) : Bridge := { b with zones := b.zones.map Zone.clone }

def isEmpty (b : Bridge) : Bool := b.ipAddress = ""

def isFound (b : Bridge) : Bool := !b.isEmpty && b.id ≠ ""

def getGroupById (b : Bridge) (id : String) : Option Group := b.groups.find? (·.id = id)

def getGroup (b : Bridge) : Option Group := b.getGroupById b.selectedGroup

def isValidGroupSelected (b : Bridge) : Bool := b.getGroup.isSome

def getGroupLights (b : Bridge) : List Light := (b.getGroup.map Group.lights).getD []

def isValidClientKey (b : Bridge) : Bool := b.clientKey.length = 32

/-- `Bridge::GetCurrentNoStreamingSessions`: how many groups are active. -/
def getCurrentNoStreamingSessions (b : Bridge) : ℕ := b.groups.countP (·.active)

/-- `Bridge::SelectGroup`: selects a group that is there. -/
def selectGroup (b : Bridge) (id : String) : Bool × Bridge :=
  if b.groups.any (·.id = id) then (true, { b with selectedGroup := id }) else (false, b)

/-- `Bridge::SelectGroupIfOnlyOneOption`. -/
def selectGroupIfOnlyOneOption (b : Bridge) : Bool × Bridge :=
  match b.groups with
  | [g] => (true, { b with selectedGroup := g.id })
  | _ => (false, b)

section Settings
variable (σ : BridgeSettings)

def isValidModelId (b : Bridge) : Bool :=
  match searchLeftmost modelAt b.modelId.toList with
  | none => false
  | some version => σ.supportedModel ≤ version

def isConnectable (b : Bridge) : Bool :=
  b.isFound && b.user ≠ "" && b.isAuthorized && b.isValidModelId σ

def isConnected (b : Bridge) : Bool := b.isConnectable σ && b.isValidIp

def isValidApiVersion (b : Bridge) : Bool :=
  match searchLeftmost versionAt b.apiversion.toList with
  | none => false
  | some version => !apiVersionLt version
      (σ.supportedApiVersionMajor, σ.supportedApiVersionMinor, σ.supportedApiVersionBuild)

def isSupportingClipV2 (b : Bridge) : Bool :=
  b.swversion ≠ "" && σ.supportedClipV2SwVersion ≤ strtol b.swversion.toList &&
    (b.modelId = "" || b.isValidModelId σ)

/-- `Bridge::GetStatus`: the first obstacle, in the order of the source. -/
def getStatus (b : Bridge) : BridgeStatus :=
  if b.isEmpty then .empty
  else if !b.isFound then .notFound
  else if !b.isValidModelId σ then .invalidModel
  else if !b.isConnectable σ then .notConnectable
  else if !b.isConnected σ then .notConnected
  else if !b.isValidApiVersion σ then .invalidVersion
  else if !b.isValidClientKey then .invalidClientkey
  else if b.groups.length = 0 then .noGroupAvailable
  else match b.getGroup with
    | none => .invalidGroupSelected
    | some group =>
      if b.isBusy then .busy
      else if group.active && group.owner = b.appId then .streaming
      else .ready

def isReadyToStream (b : Bridge) : Bool := b.getStatus σ = .ready

def isStreaming (b : Bridge) : Bool := b.getStatus σ = .streaming

def hasEverBeenAuthorizedForStreaming (b : Bridge) : Bool :=
  b.isFound && b.isValidModelId σ && b.user ≠ "" && b.isValidClientKey

def isAuthorizedForStreaming (b : Bridge) : Bool :=
  b.hasEverBeenAuthorizedForStreaming σ && b.isAuthorized

/-- `Bridge::SetUser`: on the first version of the interface the app id is the user id. -/
def setUser (b : Bridge) (user : String) : Bridge :=
  if b.isSupportingClipV2 σ then { b with user } else { b with user, appId := user }

end Settings

/-! ### The addresses of its resources -/

/-- `GetUrl`. -/
def getUrl (b : Bridge) : String :=
  "https://" ++ b.ipAddress ++ if b.sslPort = "" then "" else ":" ++ b.sslPort

section Urls
variable (σ : BridgeSettings)

/-- `GetStreamApiRootUrl`, which is also `GetApiRootUrl`. -/
def getApiRootUrl (b : Bridge) (useClipV2 eventing : Bool) : String :=
  b.getUrl ++
    if useClipV2 && b.isSupportingClipV2 σ then
      if eventing then "/eventstream/clip/v2" else "/clip/v2/resource"
    else "/api/"

/-- `GetBaseUrl`. -/
def getBaseUrl (b : Bridge) (useClipV2 eventing : Bool) : String :=
  b.getApiRootUrl σ useClipV2 eventing ++
    if !useClipV2 && b.user ≠ "" then b.user ++ "/" else ""

/-- `GetSmallConfigUrl`. -/
def getSmallConfigUrl (b : Bridge) : String := b.getApiRootUrl σ false false ++ "config/"

/-- `GetSelectedGroupUrl`. -/
def getSelectedGroupUrl (b : Bridge) : String :=
  if b.isSupportingClipV2 σ then
    b.getApiRootUrl σ true false ++ "/" ++ "entertainment_configuration/" ++ b.selectedGroup
  else b.getApiRootUrl σ false false ++ b.user ++ "/" ++ "groups/" ++ b.selectedGroup

end Urls

end Bridge

end HueStream.Data
