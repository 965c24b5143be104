import PortVpn.Lib.LongestMatch
import PortVpn.Lib.Machine
import PortVpn.Net.CIDRIP

/-!
# The networks of a routing configuration

`NetworkSpace` collects networks that are routed through the VPN or around it, and
`generateIPList` turns them into disjoint networks. Its priority queue may return equal elements in
any order: a run of the loop is a list of choices, one for each element that is polled.
-/

set_option autoImplicit false

namespace PortVpn.Net

open PortVpn.Lib

/-- `NetworkSpace.ipAddress`; the address is a `BigInteger`. -/
structure IpAddress where
  netAddress : Int
  networkMask : Int
  included : Bool
  isV4 : Bool
  deriving DecidableEq, Repr

namespace IpAddress

/-- The constructor for an IPv4 network. -/
def ofCIDR (ip : CIDRIP) (included : Bool) : Option IpAddress :=
  ip.getInt.map fun n => ⟨n, ip.len, included, true⟩

/-- The constructor for an IPv6 network, from the sixteen bytes of the address. -/
def ofInet6 (address : List UInt8) (mask : Int) (included : Bool) : IpAddress :=
  ⟨address.foldl (fun n b => 256 * n + b.toNat) 0, mask, included, false⟩

def setBit (n : Int) (i : Nat) : Int := if n / 2 ^ i % 2 = 1 then n else n + 2 ^ i

def clearBit (n : Int) (i : Nat) : Int := if n / 2 ^ i % 2 = 1 then n - 2 ^ i else n

/-- The number of bits outside the prefix. -/
def numBits (a : IpAddress) : Nat := ((if a.isV4 then 32 else 128) - a.networkMask).toNat

def getMaskedAddress (a : IpAddress) (one : Bool) : Int :=
  (List.range a.numBits).foldl (fun n i => if one then setBit n i else clearBit n i) a.netAddress

def getLastAddress (a : IpAddress) : Int := a.getMaskedAddress true

def getFirstAddress (a : IpAddress) : Int := a.getMaskedAddress false

/-- By first address, and smaller networks before larger ones. -/
def compareTo (a another : IpAddress) : Ordering :=
  match compare a.getFirstAddress another.getFirstAddress with
  | .eq =>
      if a.networkMask > another.networkMask then .lt
      else if another.networkMask = a.networkMask then .eq
      else .gt
  | comp => comp

/-- `ipAddress.equals`, which ignores `included`. -/
def equals (a on : IpAddress) : Bool :=
  a.networkMask == on.networkMask && on.getFirstAddress == a.getFirstAddress

/-- The first half of `split`. -/
def firstHalf (a : IpAddress) : IpAddress :=
  ⟨a.getFirstAddress, a.networkMask + 1, a.included, a.isV4⟩

/-- The second half of `split`. -/
def secondHalf (a : IpAddress) : IpAddress :=
  ⟨a.firstHalf.getLastAddress + 1, a.networkMask + 1, a.included, a.isV4⟩

def containsNet (a network : IpAddress) : Bool :=
  a.getFirstAddress ≤ network.getFirstAddress && network.getLastAddress ≤ a.getLastAddress

def getIPv4Address (a : IpAddress) : Text :=
  let ip := wrap64 a.netAddress
  decimal ((ip / 2 ^ 24).tmod 256) ++ '.' :: decimal ((ip / 2 ^ 16).tmod 256) ++
    '.' :: decimal ((ip / 2 ^ 8).tmod 256) ++ '.' :: decimal (ip.tmod 256)

/-- The loop of `getIPv6Address` over the groups of 16 bits, from the last one on; the text is
`none` until a group that is not zero is met. -/
def ipv6Groups : Nat → Int → Bool → Option Text → Option Text
  | 0, _, _, ipv6str => ipv6str
  | fuel + 1, r, lastPart, ipv6str =>
      if r > 0 then
        let part := (r % 0x10000).toNat
        let ipv6str :=
          if ipv6str.isSome || part != 0 then
            if lastPart then some (Nat.toDigits 16 part)
            else some (Nat.toDigits 16 part ++ ':' :: ipv6str.getD [':'])
          else none
        ipv6Groups fuel (r / 2 ^ 16) false ipv6str
      else ipv6str

def getIPv6Address (a : IpAddress) : Text :=
  (ipv6Groups (a.netAddress.toNat.log2 / 16 + 1) a.netAddress true none).getD [':', ':']

/-- `ipAddress.toString`. -/
def toText (a : IpAddress) : Text :=
  (if a.isV4 then a.getIPv4Address else a.getIPv6Address) ++ '/' :: decimal a.networkMask

example : toText ⟨0xC0A80180, 25, true, true⟩ = "192.168.1.128/25".toList := by decide

example : toText ⟨0x20010db8000000000000000000000000, 32, true, false⟩ = "2001:db8::/32".toList := by
  decide +kernel

end IpAddress

/-! ## The two collections -/

/-- `TreeSet.add`: the set keeps the element it has. -/
def treeAdd (a : IpAddress) : List IpAddress → List IpAddress
  | [] => [a]
  | b :: s =>
      match a.compareTo b with
      | .lt => a :: b :: s
      | .eq => b :: s
      | .gt => b :: treeAdd a s

/-- The elements of a priority queue that `poll` may return. -/
def least (networks : List IpAddress) : List IpAddress :=
  networks.filter fun a => networks.all fun b => b.compareTo a != .lt

/-- `PriorityQueue.poll`: the element that the choice selects among the least ones. -/
def poll (choice : Nat) (networks : List IpAddress) : Option (IpAddress × List IpAddress) :=
  (least networks)[choice % (least networks).length]?.map fun a => (a, networks.erase a)

/-- `PriorityQueue.contains`. -/
def contains (networks : List IpAddress) (a : IpAddress) : Bool := networks.any fun b => a.equals b

/-- `if (!networks.contains(a)) networks.add(a)`. -/
def addNew (a : IpAddress) (networks : List IpAddress) : List IpAddress :=
  if contains networks a then networks else a :: networks

/-! ## The loop of `generateIPList` -/

/-- The variables of the loop. -/
structure Merge where
  networks : List IpAddress
  ipsDone : List IpAddress := []
  currentNet : Option IpAddress := none
  deriving DecidableEq, Repr

namespace Merge

/-- The current network ends before the next one starts: it is done. -/
def finish (s : Merge) (currentNet : IpAddress) (nextNet : Option IpAddress) : Merge :=
  { s with ipsDone := treeAdd currentNet s.ipsDone, currentNet := nextNet }

/-- The current network lies in the next one, and both start at the same address. -/
def mergeSameBase (s : Merge) (currentNet nextNet : IpAddress) : Merge :=
  if currentNet.included = nextNet.included then { s with currentNet := some nextNet }
  else
    -- the larger network is split, and its first half may be the current network
    let networks := addNew nextNet.secondHalf s.networks
    { s with networks :=
        if nextNet.firstHalf.getLastAddress = currentNet.getLastAddress then networks
        else addNew nextNet.firstHalf networks }

/-- The next network lies in the current one and starts after it. -/
def mergeInside (s : Merge) (currentNet nextNet : IpAddress) : Merge :=
  if currentNet.included = nextNet.included then s
  else
    -- the current network is split, and its second half may have the key of the next one
    { s with
      networks :=
        if currentNet.secondHalf.networkMask = nextNet.networkMask then nextNet :: s.networks
        else nextNet :: currentNet.secondHalf :: s.networks
      currentNet := some currentNet.firstHalf }

/-- One round of the loop, with the choice that `poll` makes. -/
def round (choice : Nat) (s : Merge) (currentNet : IpAddress) : Merge :=
  match poll choice s.networks with
  | none => s.finish currentNet none
  | some (nextNet, networks) =>
      let s := { s with networks := networks }
      -- the current network ends before the next one starts
      if currentNet.getLastAddress < nextNet.getFirstAddress then s.finish currentNet (some nextNet)
      else if currentNet.getFirstAddress = nextNet.getFirstAddress ∧
          currentNet.networkMask ≥ nextNet.networkMask then s.mergeSameBase currentNet nextNet
      else s.mergeInside currentNet nextNet

/-- The loop as a machine: it runs while there is a current network. -/
def step : Machine Merge Nat Unit := fun s choice =>
  s.currentNet.map fun currentNet => (s.round choice currentNet, [])

/-- The state in which the loop is entered. -/
def start (choice : Nat) (mIpAddresses : List IpAddress) : Merge :=
  match poll choice mIpAddresses with
  | none => { networks := [] }
  | some (currentNet, networks) => { networks := networks, currentNet := some currentNet }

/-- The loop with the choices of its rounds; `none` if they do not last to its end. -/
def loop : List Nat → Merge → Option (List IpAddress)
  | [], s => if s.currentNet = none then some s.ipsDone else none
  | choice :: choices, s =>
      match s.currentNet with
      | none => some s.ipsDone
      | some currentNet => loop choices (s.round choice currentNet)

end Merge

/-- `NetworkSpace.generateIPList`, with the choices of the priority queue. -/
def generateIPList (choice : Nat) (choices : List Nat) (mIpAddresses : List IpAddress) :
    Option (List IpAddress) :=
  Merge.loop choices (Merge.start choice mIpAddresses)

/-! ## The collection of networks -/

/-- `NetworkSpace`, a tree set of networks. -/
structure NetworkSpace where
  mIpAddresses : List IpAddress := []
  deriving DecidableEq, Repr

namespace NetworkSpace

def getNetworks (s : NetworkSpace) (included : Bool) : List IpAddress :=
  s.mIpAddresses.filter fun ip => ip.included == included

def clear (_ : NetworkSpace) : NetworkSpace := {}

def add (s : NetworkSpace) (a : IpAddress) : NetworkSpace := ⟨treeAdd a s.mIpAddresses⟩

def addIP (s : NetworkSpace) (cidrIp : CIDRIP) (included : Bool) : Option NetworkSpace :=
  (IpAddress.ofCIDR cidrIp included).map s.add

def addIPSplit (s : NetworkSpace) (cidrIp : CIDRIP) (included : Bool) : Option NetworkSpace :=
  (IpAddress.ofCIDR cidrIp included).map fun newIP => (s.add newIP.firstHalf).add newIP.secondHalf

def addIPv6 (s : NetworkSpace) (address : List UInt8) (mask : Int) (included : Bool) :
    NetworkSpace :=
  s.add (IpAddress.ofInet6 address mask included)

/-- `getPositiveIPList`, from the result of `generateIPList`; before Android 4.4 (`kitkat`) it also
puts back included networks that hold no excluded one. -/
def getPositiveIPList (s : NetworkSpace) (kitkat : Bool) (ipsSorted : List IpAddress) :
    List IpAddress :=
  let ips := ipsSorted.filter fun ia => ia.included
  if kitkat then ips
  else ips ++ s.mIpAddresses.filter fun origIp =>
    origIp.included && !(ipsSorted.any fun ip => ip.compareTo origIp == .eq) &&
      !(ipsSorted.any fun calculatedIp => !calculatedIp.included && origIp.containsNet calculatedIp)

end NetworkSpace

end PortVpn.Net
