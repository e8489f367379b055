import Mathlib.Data.List.Basic

/-! # The check of an ip scan which addresses are reachable

`filter_reachable_ips` works on up to `maxActiveSockets` sockets at a time: each round fills the working set,
asks `select` about all of it, reports the sockets that are connected and drops the sockets that are no
longer connecting. What the operating system answers in a round is a `Round`. Descriptors are numbered in
the order of their creation; the system reuses numbers, but never that of an open socket. -/

namespace HueStream.Methods.IpscanPreCheck

/-- `IPSCAN_MAX_ACTIVE_SOCKETS`. -/
def maxActiveSockets : ℕ := 1024

/-- `IPCHECK_HTTP_CONNECT_TIMEOUT`, in seconds. -/
def httpConnectTimeout : ℕ := 2

inductive SocketStatus
  | disconnected | connecting | connected | connectionError | socketError | unexpectedError
deriving DecidableEq

structure AsyncSocket where
  fd : ℕ
  ip : String
  status : SocketStatus
  /-- A reading of the clock, in milliseconds. -/
  timeout : ℕ
deriving DecidableEq

/-! ### What the system answers -/

/-- The answers to the calls for one new socket. -/
structure Attempt where
  now : ℕ
  /-- `SETNONBLOCKING(fd) != -1`. -/
  nonblocking : Bool
  /-- `INET_PTON(...) == 1`. -/
  parsed : Bool
  /-- `CONNECT(...) == 0`. -/
  connected : Bool
  /-- `ERRNO == SOCKET_INPROGRESS`. -/
  inProgress : Bool

/-- The sets of `select` a socket is in, and the clock when its turn comes. -/
structure Ready where
  read : Bool
  write : Bool
  except : Bool
  now : ℕ

structure Round where
  stoppedByUser : Bool
  /-- The answer to the `i`-th call of `_SOCKET` in the round, with those that follow; `none` for
  `INVALID_SOCKET`. -/
  attempt : ℕ → Option Attempt
  /-- `none` when `select` fails. -/
  select : Option (ℕ → Ready)

/-! ### The function -/

/-- What can be observed from outside, in this order; an opened socket with its round. -/
inductive Event
  | opened (round : ℕ) (s : AsyncSocket)
  | closed (fd : ℕ)
  | reported (ip : String)
deriving DecidableEq

/-- The local variables of the function. -/
structure Scan where
  /-- The back of the vector comes first. -/
  ips : List String
  activeSockets : List AsyncSocket := []
  returnValue : List String := []
  /-- How many sockets have been created. -/
  created : ℕ := 0
  events : List Event := []
deriving DecidableEq

def asyncConnect (a : Attempt) : SocketStatus :=
  if !a.nonblocking then .unexpectedError
  else if !a.parsed then .unexpectedError
  else if a.connected then .connected
  else if !a.inProgress then .unexpectedError
  else .connecting

/-- The part of `check_sockets` for one socket. -/
def checkSocket (ready : Ready) (s : AsyncSocket) : AsyncSocket :=
  if ready.except || ready.read then { s with status := .connectionError }
  else if ready.write then { s with status := .connected }
  else if s.timeout < ready.now then { s with status := .connectionError }
  else s

def checkSockets (select : Option (ℕ → Ready)) (sockets : List AsyncSocket) : List AsyncSocket :=
  match select with
  | none => sockets
  | some ready => sockets.map fun s => checkSocket (ready s.fd) s

/-- The inner loop, at its `i`-th turn in the round. -/
def addSockets (round : ℕ) (attempt : ℕ → Option Attempt) : ℕ → List String → Scan → Scan
  | _, [], s => { s with ips := [] }
  | i, ip :: ips, s =>
    if s.activeSockets.length < maxActiveSockets then
      match attempt i with
      | none => { s with ips := ip :: ips }
      | some a =>
        let socket : AsyncSocket :=
          { fd := s.created, ip, status := asyncConnect a, timeout := a.now + httpConnectTimeout * 1000 }
        let opened := s.events ++ [.opened round socket]
        if socket.status = .unexpectedError then
          addSockets round attempt (i + 1) ips
            { s with created := s.created + 1, events := opened ++ [.closed socket.fd] }
        else
          addSockets round attempt (i + 1) ips
            { s with
              activeSockets := s.activeSockets ++ [socket], created := s.created + 1, events := opened }
    else { s with ips := ip :: ips }

def report (s : Scan) : Scan :=
  let found := (s.activeSockets.filter (·.status = .connected)).map AsyncSocket.ip
  { s with returnValue := s.returnValue ++ found, events := s.events ++ found.map .reported }

/-- The sockets that are no longer connecting are destroyed, which closes them. -/
def purge (s : Scan) : Scan :=
  let gone := s.activeSockets.filter (·.status ≠ .connecting)
  { s with
    activeSockets := s.activeSockets.filter (·.status = .connecting)
    events := s.events ++ gone.map (.closed ·.fd) }

/-- The body of the loop. -/
def scanRound (n : ℕ) (round : Round) (s : Scan) : Scan :=
  let s := addSockets n round.attempt 0 s.ips s
  purge (report { s with activeSockets := checkSockets round.select s.activeSockets })

/-- The end of the function: the working set is destroyed. -/
def finish (s : Scan) : Scan :=
  { s with activeSockets := [], events := s.events ++ s.activeSockets.map (.closed ·.fd) }

/-- The loop from round `n` on; `none` when it has not ended after so many rounds. -/
def scanLoop (env : ℕ → Round) : ℕ → ℕ → Scan → Option Scan
  | 0, _, _ => none
  | fuel + 1, n, s =>
    if (env n).stoppedByUser || (s.ips.isEmpty && s.activeSockets.isEmpty) then some (finish s)
    else scanLoop env fuel (n + 1) (scanRound n (env n) s)

def start (ips : List String) : Scan := { ips := ips.reverse }

def filterReachableIps (env : ℕ → Round) (fuel : ℕ) (ips : List String) : Option Scan :=
  scanLoop env fuel 0 (start ips)

end HueStream.Methods.IpscanPreCheck
