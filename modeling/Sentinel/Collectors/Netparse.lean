import Sentinel.Library.IpAddress
import Sentinel.Library.PyText
import Sentinel.Normalizer.Mapper

/-!
# Rows of `/proc/net/tcp`

`collectors/netparse.py`: one row to one socket.  Addresses are little-endian words in hexadecimal,
ports big-endian.  A row that is malformed in any part yields nothing.
-/

namespace Sentinel.Network

/-! ## Sockets -/

/-- The values of `_TCP_STATES`. -/
inductive TcpState where
  | established | synSent | synRecv | finWait1 | finWait2 | timeWait | close | closeWait | lastAck
  | listen | closing
deriving DecidableEq, Repr

def TcpState.value : TcpState → String
  | .established => "ESTABLISHED"
  | .synSent => "SYN_SENT"
  | .synRecv => "SYN_RECV"
  | .finWait1 => "FIN_WAIT1"
  | .finWait2 => "FIN_WAIT2"
  | .timeWait => "TIME_WAIT"
  | .close => "CLOSE"
  | .closeWait => "CLOSE_WAIT"
  | .lastAck => "LAST_ACK"
  | .listen => stateListen
  | .closing => "CLOSING"

/-- The states in the order of their codes, from `01` on. -/
def tcpStates : List TcpState :=
  [.established, .synSent, .synRecv, .finWait1, .finWait2, .timeWait, .close, .closeWait, .lastAck,
    .listen, .closing]

/-- `_TCP_STATES.get(code.upper())`.  No character but `a` and `b` becomes `A` or `B`. -/
def tcpState (code : List Char) : Option TcpState :=
  match code with
  | ['0', digit] => (PyText.digitValue 16 digit).bind fun n =>
      if n = 0 then none else tcpStates[n - 1]?
  | _ => none

/-- `Socket`. -/
structure Socket where
  proto : String
  localIp : String
  localPort : ℕ
  remoteIp : String
  remotePort : ℕ
  state : TcpState
  uid : ℤ
  inode : ℤ
deriving DecidableEq

abbrev SocketKey := String × String × ℕ × String × ℕ × ℤ

def Socket.key (sock : Socket) : SocketKey :=
  (sock.proto, sock.localIp, sock.localPort, sock.remoteIp, sock.remotePort, sock.inode)

/-! ## Addresses -/

/-- `bytes.fromhex` of a text without white space. -/
def fromHex : List Char → Option (List ℕ)
  | [] => some []
  | [_] => none
  | hi :: lo :: text =>
      (PyText.digitValue 16 hi).bind fun h =>
        (PyText.digitValue 16 lo).bind fun l =>
          (fromHex text).map fun octets => (h * 16 + l) :: octets

def ipv4HexLen : ℕ := 8
def ipv6HexLen : ℕ := 32
def wordBytes : ℕ := 4

/-- Every word with its octets in reverse. -/
def reverseWords : ℕ → List ℕ → List ℕ
  | 0, _ => []
  | n + 1, raw => (raw.take wordBytes).reverse ++ reverseWords n (raw.drop wordBytes)

/-- `_parse_ipv4_hex`. -/
def parseIpv4Hex (value : List Char) : Option (List Char) :=
  if value.length ≠ ipv4HexLen then none
  else (fromHex value).map fun raw => IpAddress.dottedQuad raw.reverse

/-- `_parse_ipv6_hex`. -/
def parseIpv6Hex (mappedDotted : Bool) (value : List Char) : Option (List Char) :=
  if value.length ≠ ipv6HexLen then none
  else (fromHex value).map fun raw => IpAddress.ipv6Text mappedDotted (reverseWords 4 raw)

/-- What the decoding depends on besides the row. -/
structure Platform where
  unicode : PyText.Unicode
  mappedDotted : Bool

/-- `_parse_endpoint`. -/
def parseEndpoint (p : Platform) (ipv6 : Bool) (field : List Char) : Option (String × ℕ) :=
  match field.splitOn ':' with
  | [addrHex, portHex] =>
      (if ipv6 then parseIpv6Hex p.mappedDotted addrHex else parseIpv4Hex addrHex).bind fun ip =>
        (p.unicode.parseInt 16 portHex).bind fun port =>
          if 0 ≤ port ∧ port ≤ maxPort then some (String.ofList ip, port.toNat) else none
  | _ => none

/-! ## Rows -/

def minFields : ℕ := 10

/-- `parse_net_line`. -/
def parseNetLine (p : Platform) (proto : String) (line : List Char) : Option Socket :=
  let fields := PyText.splitSpace line
  if fields.length < minFields then none
  else
    let ipv6 := proto.toList.getLast? == some '6'
    (parseEndpoint p ipv6 (fields.getD 1 [])).bind fun localEnd =>
      (parseEndpoint p ipv6 (fields.getD 2 [])).bind fun remoteEnd =>
        (tcpState (fields.getD 3 [])).bind fun state =>
          (p.unicode.parseInt 10 (fields.getD 7 [])).bind fun uid =>
            (p.unicode.parseInt 10 (fields.getD 9 [])).map fun inode =>
              { proto := proto, localIp := localEnd.1, localPort := localEnd.2
                remoteIp := remoteEnd.1, remotePort := remoteEnd.2, state := state, uid := uid
                inode := inode }

end Sentinel.Network
