import HueStream.Lib.Regex
import HueStream.Methods.Merging

/-! # Listening for UPnP responses

The bridges answer a search with datagrams of header lines. `BridgeDiscoveryUpnpTask` appends what it
receives to what it could not use so far, and looks for responses there with one expression for the old
format and then with another for bridges with firmware 1.9 and later. Both expressions begin with the same
two lines. -/

namespace HueStream.Methods.Upnp

open HueStream.Lib Regex

/-! ### The expressions -/

/-- `.`: all but the ends of lines. -/
def isDot (c : Char) : Bool := c ≠ '\n' && c ≠ '\r'

/-- `\s`. -/
def isSpace (c : Char) : Bool := c = ' ' || ('\t' ≤ c && c ≤ '\r')

/-- `[0-9a-zA-Z]`. -/
def isAlnum (c : Char) : Bool :=
  ('0' ≤ c && c ≤ '9') || ('a' ≤ c && c ≤ 'z') || ('A' ≤ c && c ≤ 'Z')

def text (s : String) : Regex Char := lit s.toList

/-- The end of a line. -/
def crlf : List Char := ['\r', '\n']

/-- A line, and what follows it. -/
def line (q r : Regex Char) : Regex Char := seq q (seq (lit crlf) r)

/-- `LOCATION: http://(.+):.+`. -/
def locationLine : Regex Char :=
  seq (text "LOCATION: http://") (seq (group 1 (plus isDot)) (seq (text ":") (plus isDot)))

/-- `SERVER:.+IpBridge/(.+)`. -/
def serverLine : Regex Char :=
  seq (text "SERVER:") (seq (plus isDot) (seq (text "IpBridge/") (group 2 (plus isDot))))

/-- `ST:.+`. -/
def stLine : Regex Char := seq (text "ST:") (plus isDot)

/-- `USN: uuid:.+-([0-9a-zA-Z]{12})::upnp:rootdevice`. -/
def usnLine : Regex Char :=
  seq (text "USN: uuid:") (seq (plus isDot) (seq (text "-") (seq (group 3 (times isAlnum 12))
    (text "::upnp:rootdevice"))))

/-- `(\r\nhue-bridgeid:\s*([0-9a-zA-Z]*))?`. -/
def bridgeId : Regex Char :=
  opt (group 4 (seq (lit (crlf ++ "hue-bridgeid:".toList)) (seq (many isSpace) (group 5 (many isAlnum)))))

/-- `UPNP_RESPONSE_REGEX`. -/
def upnpResponseRegex : Regex Char :=
  line locationLine (line serverLine (line stLine (seq usnLine bridgeId)))

/-- `[0-9a-zA-Z].+`, captured. -/
def bridgeId19 : Regex Char := group 3 (seq (chr isAlnum) (plus isDot))

/-- `UPNP_RESPONSE_REGEX_19`. -/
def upnpResponseRegex19 : Regex Char :=
  line locationLine (line serverLine
    (seq (text "hue-bridgeid:") (seq (many isSpace) (line bridgeId19 eps))))

/-! ### Parsing -/

/-- `support::to_upper_case`. -/
def toUpperCase (s : List Char) : List Char := s.map Char.toUpper

/-- `get_unique_bridge_id_from_mac`. -/
def getUniqueBridgeIdFromMac (mac : List Char) : List Char :=
  let id := mac.filter (· ≠ ':')
  if id.length = 12 then (toUpperCase id).take 6 ++ "FFFE".toList ++ (toUpperCase id).drop 6 else id

def result (uniqueId ip apiVersion : List Char) : BridgeDiscoveryResult :=
  { uniqueId := String.ofList uniqueId, ip := String.ofList ip, apiVersion := String.ofList apiVersion }

/-- The text of a group that takes part in every match. -/
def groupText (c : Captures Char) (n : ℕ) : List Char := (captured c n).getD []

/-- The body of the first loop. -/
def resultOf (c : Captures Char) : BridgeDiscoveryResult :=
  let uniqueBridgeId :=
    match captured c 5 with
    | some id => toUpperCase id
    | none => getUniqueBridgeIdFromMac (groupText c 3)
  result uniqueBridgeId (groupText c 1) (groupText c 2)

/-- The body of the second loop. -/
def resultOf19 (c : Captures Char) : BridgeDiscoveryResult :=
  result (groupText c 3) (groupText c 1) (groupText c 2)

/-- A loop that goes on behind each match, with at most `fuel` turns. -/
def parseWhile (r : Regex Char) (body : Captures Char → BridgeDiscoveryResult) :
    ℕ → List Char → List BridgeDiscoveryResult × List Char
  | 0, response => ([], response)
  | fuel + 1, response =>
    match r.search response with
    | none => ([], response)
    | some (c, suffix) =>
      let (results, rest) := parseWhile r body fuel suffix
      (body c :: results, rest)

/-- `parse_response`: the results, and the data that remains. Every match takes a character at least. -/
def parseResponse (response : List Char) : List BridgeDiscoveryResult × List Char :=
  let (results, response) := parseWhile upnpResponseRegex resultOf response.length response
  let (results19, response) := parseWhile upnpResponseRegex19 resultOf19 response.length response
  (results ++ results19, response)

/-! ### Listening -/

structure BridgeDiscoveryUpnpTask where
  unparsedListenResult : List Char := []
  unfilteredResults : List BridgeDiscoveryResult := []

/-- The end of a listen job while the socket is open. -/
def BridgeDiscoveryUpnpTask.receive (s : BridgeDiscoveryUpnpTask) (taskResult : List Char) :
    BridgeDiscoveryUpnpTask :=
  if taskResult.isEmpty then s
  else
    let (processedResults, remainingUnparsedData) := parseResponse (s.unparsedListenResult ++ taskResult)
    { unparsedListenResult := remainingUnparsedData
      unfilteredResults := s.unfilteredResults ++ processedResults }

/-- What is collected from the pieces received. -/
def listen (pieces : List (List Char)) : List BridgeDiscoveryResult :=
  (pieces.foldl BridgeDiscoveryUpnpTask.receive {}).unfilteredResults

end HueStream.Methods.Upnp
