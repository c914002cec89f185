import Vortex.FieldRules

/-! # Addresses and names behind proxies

Behind a trusted proxy a request speaks for its client through X-Forwarded-For, X-Forwarded-Proto,
X-Forwarded-Host and Forwarded.  All of them are lists to which every proxy appends, so what a
client wrote itself stands in front.

A field that is on several lines is one list (`Request.lines`), but `header` reads its first line,
and a Forwarded field hides X-Forwarded-For.  `clientIp` therefore finds the address that the
outermost trusted proxy saw exactly if the line that is read shows it (`clientIp_unmoved`).  The
scheme and the host are read at the front of the lists, where forged elements stand; they are those
of the proxies when no forged element is read (`origin_unmoved`).

A request that is not there any more has no fields and no address.  Reading addresses and numbers
from text belongs to the standard library (`StdNet`). -/

namespace Vortex.Forwarding

open FieldRules (toLowerA)

/-! ### Text -/

def lower (s : Bytes) : Bytes := s.map toLowerA

/-- The characters that `strip` takes off by default. -/
def isWhitespace (b : UInt8) : Bool := b ∈ [sp, htab, 0x0b, cr, lf, 0x0c]

def strip (chars : UInt8 → Bool) (s : Bytes) : Bytes := (s.dropWhile chars).rdropWhile chars

/-- The elements of a list on one line. -/
def items (value : Bytes) : List Bytes := (value.splitOn comma).map (strip isWhitespace)

/-! ### Trusted proxies -/

inductive IpAddress where
  | v4 (bytes : Vector UInt8 4)
  | v6 (bytes : Vector UInt8 16)
deriving DecidableEq, Repr

structure StdNet where
  parseIpAddress : Bytes → Option IpAddress
  parseInt : Bytes → Option ℤ

def IpAddress.bytes : IpAddress → Bytes
  | .v4 a => a.toList
  | .v6 a => a.toList

/-- An IPv4-mapped address as the IPv4 address. -/
def toV4 : IpAddress → IpAddress
  | .v4 a => .v4 a
  | .v6 a =>
      if (a.toList.take 10).all (· == 0) ∧ a[10] = 0xff ∧ a[11] = 0xff then
        .v4 #v[a[12], a[13], a[14], a[15]]
      else .v6 a

/-- The loop over the bytes under the network mask. -/
def sameBits : ℕ → Bytes → Bytes → Bool
  | remaining + 1, a :: as, b :: bs =>
      let take := min 8 (remaining + 1)
      let mask : UInt8 := if take = 8 then 0xff else 0xff <<< (8 - take).toUInt8
      a &&& mask == b &&& mask && sameBits (remaining + 1 - take) as bs
  | _, _, _ => true

def inNetwork (ip net : IpAddress) (bits : ℤ) : Bool :=
  ip.bytes.length == net.bytes.length &&
    !(decide (bits < 0) || decide (ip.bytes.length * 8 < bits)) &&
    sameBits bits.toNat ip.bytes net.bytes

/-- An entry of the list is an address or a range. -/
def trustsEntry (std : StdNet) (pip : IpAddress) (entry : Bytes) : Bool :=
  let e := strip isWhitespace entry
  if 0x2f ∈ e then
    match std.parseIpAddress (e.rdropWhile (· ≠ 0x2f)).dropLast,
      std.parseInt (e.rtakeWhile (· ≠ 0x2f)) with
    | some net, some bits => inNetwork pip net bits
    | _, _ => false
  else if e = [] then false
  else decide (std.parseIpAddress e = some pip)

def isTrustedProxy (std : StdNet) (peer : Bytes) (trusted : List Bytes) : Bool :=
  if trusted = [] then true
  else match std.parseIpAddress peer with
    | none => false
    | some ip => trusted.any (trustsEntry std (toV4 ip))

/-! ### Requests -/

inductive Carrier where
  | snapshot (secure : Bool)
  | http1 (tls : Bool)
  | http2 (tls : Bool)
  | http3
deriving DecidableEq, Repr

/-- The test of a field name; HTTP/2 and HTTP/3 names are in lower case. -/
def Carrier.isName (carrier : Carrier) (name n : Bytes) : Bool :=
  match carrier with
  | .snapshot _ | .http1 _ => lower n == lower name
  | .http2 _ | .http3 => n == lower name

structure Request where
  carrier : Carrier
  remoteAddress : Bytes
  fields : Fields

structure Server where
  std : StdNet
  trustedProxies : List Bytes

/-- All lines of a field. -/
def Request.lines (req : Request) (name : Bytes) : List Bytes :=
  (req.fields.filter fun f => req.carrier.isName name f.1).map (·.2)

def Request.header (req : Request) (name : Bytes) : Bytes :=
  ((req.fields.find? fun f => req.carrier.isName name f.1).map (·.2)).getD []

def Server.trusts (s : Server) (ip : Bytes) : Bool := isTrustedProxy s.std ip s.trustedProxies

/-- The addresses of one X-Forwarded-For line. -/
def addresses (value : Bytes) : List Bytes := (items value).filter (· ≠ [])

def forwardedFor (req : Request) : List Bytes :=
  let xff := req.header (ascii "x-forwarded-for")
  if xff = [] then [] else addresses xff

def fromTrustedProxy (s : Server) (req : Request) : Bool :=
  decide (s.trustedProxies ≠ []) && s.trusts req.remoteAddress

structure ForwardedElem where
  forr : Bytes := []
  proto : Bytes := []
  host : Bytes := []
deriving DecidableEq, Repr

/-- A value without its quotes. -/
def unquote (v : Bytes) : Bytes :=
  if 2 ≤ v.length ∧ v.head? = some 0x22 ∧ v.getLast? = some 0x22 then v.tail.dropLast else v

/-- One parameter of an element. -/
def ForwardedElem.param (e : ForwardedElem) (param : Bytes) : ForwardedElem :=
  if 0x3d ∈ param then
    let k := lower (strip isWhitespace (param.takeWhile (· ≠ 0x3d)))
    let v := unquote (strip isWhitespace (param.dropWhile (· ≠ 0x3d)).tail)
    if k = ascii "for" then { e with forr := v }
    else if k = ascii "proto" then { e with proto := v }
    else if k = ascii "host" then { e with host := v }
    else e
  else e

def parseForwarded (hdr : Bytes) : List ForwardedElem :=
  ((hdr.splitOn comma).map fun elem => (elem.splitOn semicolon).foldl .param {}).filter (· ≠ {})

def forwardedElems (req : Request) : List ForwardedElem :=
  parseForwarded (req.header (ascii "forwarded"))

/-- The address of a node. -/
def fwdIp (s : Bytes) : Bytes :=
  let v := strip (· == 0x22) s
  if v.head? = some 0x5b then
    if 0x5d ∈ v ∧ 1 < v.findIdx (· == 0x5d) then (v.take (v.findIdx (· == 0x5d))).tail else v
  else if v.count colon = 1 then v.takeWhile (· ≠ colon)
  else v

def forwardedProto (s : Server) (req : Request) : Bytes :=
  if fromTrustedProxy s req then
    let fwd := (forwardedElems req).headD {}
    if fwd.proto ≠ [] then lower fwd.proto
    else
      let xfp := req.header (ascii "x-forwarded-proto")
      if xfp ≠ [] then lower ((items xfp).headD []) else []
  else []

def forwardedHost (s : Server) (req : Request) : Bytes :=
  if fromTrustedProxy s req then
    let fwd := (forwardedElems req).headD {}
    if fwd.host ≠ [] then fwd.host
    else
      let xfh := req.header (ascii "x-forwarded-host")
      if xfh ≠ [] then (items xfh).headD [] else []
  else []

/-- The addresses on the way of a request, the client's first. -/
def addressChain (req : Request) : List Bytes :=
  let fwd := forwardedElems req
  if fwd ≠ [] then (fwd.filter (·.forr ≠ [])).map (fwdIp ·.forr) else forwardedFor req

def clientIp (s : Server) (req : Request) : Bytes :=
  if fromTrustedProxy s req then
    let chain := addressChain req
    match chain.reverse.find? (fun ip => !s.trusts ip) with
    | some ip => ip
    | none => chain.headD req.remoteAddress
  else req.remoteAddress

def isSecure (s : Server) (req : Request) : Bool :=
  let fp := forwardedProto s req
  if fp ≠ [] then fp == ascii "https"
  else match req.carrier with
    | .snapshot secure => secure
    | .http1 tls | .http2 tls => tls
    | .http3 => true

def scheme (s : Server) (req : Request) : Bytes :=
  if isSecure s req then ascii "https" else ascii "http"

def host (s : Server) (req : Request) : Bytes :=
  let fwd := forwardedHost s req
  if fwd ≠ [] then fwd
  else
    let authority := req.header (ascii ":authority")
    if authority = [] then req.header (ascii "host") else authority

/-! ### First lines -/

variable {s : Server} {req req' : Request} {client : Bytes}

theorem header_eq_lines (req : Request) (name : Bytes) :
    req.header name = (req.lines name).headD [] := by
  unfold Request.header Request.lines
  rw [← List.head?_filter, List.headD_eq_head?_getD, List.head?_map]

theorem items_ne_nil (value : Bytes) : items value ≠ [] :=
  mt List.map_eq_nil_iff.mp (List.splitOnP_ne_nil _ _)

theorem headD_items_header (req : Request) (name : Bytes) :
    (items (req.header name)).headD [] = ((req.lines name).flatMap items).headD [] := by
  rw [header_eq_lines]
  cases req.lines name with
  | nil => rfl
  | cons line rest =>
    rw [List.flatMap_cons, List.headD_cons]
    obtain ⟨a, as, h⟩ := List.exists_cons_of_ne_nil (items_ne_nil line)
    rw [h]
    rfl

theorem forwardedFor_eq (req : Request) :
    forwardedFor req = addresses (req.header (ascii "x-forwarded-for")) := by
  unfold forwardedFor
  dsimp only
  split_ifs with h
  · rw [h]
    rfl
  · rfl

/-! ### The address of the client -/

/-- The list of X-Forwarded-For addresses, from all of its lines. -/
def forwardedForList (req : Request) : List Bytes :=
  (req.lines (ascii "x-forwarded-for")).flatMap addresses

/-- The request came through trusted proxies.  The outermost one appended the address of its peer,
which is not trusted, and the others those of trusted proxies; what stands before is forged. -/
structure Relayed (s : Server) (req : Request) (client : Bytes) (hops : List Bytes) : Prop where
  peer : fromTrustedProxy s req = true
  untrusted : s.trusts client = false
  trusted : ∀ ip ∈ hops, s.trusts ip = true
  list : ∃ forged, forwardedForList req = forged ++ client :: hops

/-- The last address that is not trusted is the client's. -/
def EndsWith (s : Server) (chain : List Bytes) (client : Bytes) : Prop :=
  ∃ front back, chain = front ++ client :: back ∧ ∀ ip ∈ back, s.trusts ip = true

/-- The client shows on the line that is read: the first Forwarded line if it has an element, and
else the first X-Forwarded-For line. -/
structure Shows (s : Server) (req : Request) (client : Bytes) : Prop where
  forwarded : ∀ line ∈ (req.lines (ascii "forwarded")).head?, parseForwarded line ≠ [] →
    EndsWith s (((parseForwarded line).filter (·.forr ≠ [])).map (fwdIp ·.forr)) client
  addresses : (∀ line ∈ (req.lines (ascii "forwarded")).head?, parseForwarded line = []) →
    ∃ line ∈ (req.lines (ascii "x-forwarded-for")).head?, EndsWith s (addresses line) client

theorem not_endsWith_nil : ¬ EndsWith s [] client := by
  rintro ⟨front, back, h, -⟩
  simp at h

theorem endsWith_addressChain : EndsWith s (addressChain req) client ↔ Shows s req client := by
  have hxff : EndsWith s (forwardedFor req) client ↔
      ∃ line ∈ (req.lines (ascii "x-forwarded-for")).head?, EndsWith s (addresses line) client := by
    rw [forwardedFor_eq, header_eq_lines]
    cases req.lines (ascii "x-forwarded-for") with
    | nil => exact iff_of_false not_endsWith_nil (by simp)
    | cons line rest => simp
  unfold addressChain forwardedElems
  rw [header_eq_lines]
  cases hl : req.lines (ascii "forwarded") with
  | nil =>
    refine hxff.trans ⟨fun h => ⟨by simp [hl], fun _ => h⟩, fun h => h.addresses (by simp [hl])⟩
  | cons line rest =>
    dsimp only [List.headD_cons]
    split_ifs with hp
    · refine ⟨fun h => ⟨?_, fun hno => ?_⟩, fun h => h.forwarded line (by simp [hl]) hp⟩
      · intro line' hm _
        rw [hl] at hm
        cases hm
        exact h
      · exact absurd (hno line (by simp [hl])) hp
    · rw [not_not] at hp
      refine hxff.trans ⟨fun h => ⟨fun line' hm hne => ?_, fun _ => h⟩, fun h => h.addresses ?_⟩
      · rw [hl] at hm
        cases hm
        exact absurd hp hne
      · simpa [hl] using hp

theorem Relayed.clientIp_eq_iff {hops : List Bytes} (h : Relayed s req client hops) :
    clientIp s req = client ↔ Shows s req client := by
  have hpeer : s.trusts req.remoteAddress = true := by
    have := h.peer
    simp only [fromTrustedProxy, Bool.and_eq_true] at this
    exact this.2
  rw [← endsWith_addressChain]
  unfold clientIp
  rw [if_pos h.peer]
  dsimp only
  generalize addressChain req = chain
  cases hf : chain.reverse.find? (fun ip => !s.trusts ip) with
  | some ip =>
    obtain ⟨hip, back, front, hchain, hback⟩ := List.find?_eq_some_iff_append.mp hf
    have hsplit : chain = front.reverse ++ ip :: back.reverse := by
      simpa using congrArg List.reverse hchain
    refine ⟨?_, ?_⟩
    · rintro rfl
      exact ⟨_, _, hsplit, fun a ha => by simpa using hback a (List.mem_reverse.mp ha)⟩
    · rintro ⟨front', back', hchain', hback'⟩
      have hfind : chain.reverse.find? (fun ip => !s.trusts ip) = some client := by
        rw [hchain', List.reverse_append, List.reverse_cons]
        refine List.find?_eq_some_iff_append.mpr ⟨by simp [h.untrusted], back'.reverse,
          front'.reverse, by simp, fun a ha => ?_⟩
        simp [hback' a (List.mem_reverse.mp ha)]
      exact Option.some.inj (hf.symm.trans hfind)
  | none =>
    have hall : ∀ ip ∈ chain, s.trusts ip = true := by simpa using hf
    refine iff_of_false ?_ ?_
    · rintro rfl
      refine absurd h.untrusted ?_
      cases chain with
      | nil => simp [hpeer]
      | cons ip rest => simp [hall ip List.mem_cons_self]
    · rintro ⟨front, back, rfl, -⟩
      exact absurd (hall client (by simp)) (by simp [h.untrusted])

/-- Reads addresses of one digit a byte. -/
def oneDigitNet : StdNet where
  parseIpAddress
    | [a, 0x2e, b, 0x2e, c, 0x2e, d] =>
        if [a, b, c, d].all (fun x => 0x30 ≤ x && x ≤ 0x39) then
          some (.v4 #v[a - 0x30, b - 0x30, c - 0x30, d - 0x30])
        else none
    | _ => none
  parseInt _ := none

/-- A server behind one proxy. -/
def oneProxy : Server := ⟨oneDigitNet, [ascii "9.0.0.1"]⟩

def relayedRequest (fields : List (String × String)) : Request where
  carrier := .http1 false
  remoteAddress := ascii "9.0.0.1"
  fields := fields.map fun f => (ascii f.1, ascii f.2)

def honestRequest : Request := relayedRequest [("x-forwarded-for", "1.2.3.4")]

/-- The client sent a line of its own, and the proxy added one. -/
def twoLines : Request :=
  relayedRequest [("x-forwarded-for", "6.6.6.6"), ("x-forwarded-for", "1.2.3.4")]

/-- The client sent a Forwarded field. -/
def otherField : Request :=
  relayedRequest [("forwarded", "for=6.6.6.6"), ("x-forwarded-for", "1.2.3.4")]

theorem relayed_oneProxy (forged : List Bytes) (hpeer : fromTrustedProxy oneProxy req = true)
    (h : forwardedForList req = forged ++ [ascii "1.2.3.4"]) :
    Relayed oneProxy req (ascii "1.2.3.4") [] :=
  ⟨hpeer, by decide +kernel, by simp, forged, h⟩

theorem shows_oneProxy (front : List Bytes) {line : Bytes}
    (hfwd : req.lines (ascii "forwarded") = [])
    (hxff : (req.lines (ascii "x-forwarded-for")).head? = some line)
    (h : addresses line = front ++ [ascii "1.2.3.4"]) : Shows oneProxy req (ascii "1.2.3.4") :=
  ⟨by simp [hfwd], fun _ => ⟨line, hxff, front, [], h, by simp⟩⟩

/-- What proxies told about the origin of a request, each list from all of its lines. -/
structure ProxyLists where
  forwarded : List ForwardedElem := []
  protos : List Bytes := []
  hosts : List Bytes := []
deriving DecidableEq

def Request.proxyLists (req : Request) : ProxyLists where
  forwarded := (req.lines (ascii "forwarded")).flatMap parseForwarded
  protos := (req.lines (ascii "x-forwarded-proto")).flatMap items
  hosts := (req.lines (ascii "x-forwarded-host")).flatMap items

def ProxyLists.append (l l' : ProxyLists) : ProxyLists :=
  ⟨l.forwarded ++ l'.forwarded, l.protos ++ l'.protos, l.hosts ++ l'.hosts⟩

/-- The lists end with what the trusted proxies appended.  The walk of `clientIp` stops at the
first of their Forwarded elements. -/
structure ViaChain (s : Server) (req : Request) (forged chain : ProxyLists) : Prop where
  peer : fromTrustedProxy s req = true
  lists : req.proxyLists = forged.append chain
  peeled : ∀ e hops, chain.forwarded = e :: hops → s.trusts (fwdIp e.forr) = false ∧
    ∀ e' ∈ hops, s.trusts (fwdIp e'.forr) = true

def originNames : List Bytes :=
  [ascii "forwarded", ascii "x-forwarded-proto", ascii "x-forwarded-host"]

/-- The fields that do not tell about the origin. -/
def Request.otherFields (req : Request) : Fields :=
  req.fields.filter fun f => originNames.all fun name => !req.carrier.isName name f.1

/-- Requests that differ only in these lists. -/
structure Alike (req req' : Request) : Prop where
  carrier : req.carrier = req'.carrier
  others : req.otherFields = req'.otherFields

/-- A Forwarded list shows on its first line. -/
def Request.ShowsForwarded (req : Request) : Prop :=
  forwardedElems req = [] → req.proxyLists.forwarded = []

instance : DecidablePred Request.ShowsForwarded :=
  fun _ => inferInstanceAs (Decidable (_ → _))

theorem Request.ShowsForwarded.headD_eq (h : req.ShowsForwarded) :
    (forwardedElems req).headD {} = req.proxyLists.forwarded.headD {} := by
  unfold ShowsForwarded forwardedElems at h
  unfold forwardedElems
  rw [header_eq_lines] at h ⊢
  change _ → List.flatMap _ _ = _ at h
  change _ = (List.flatMap _ _).headD _
  cases hl : req.lines (ascii "forwarded") with
  | nil => rfl
  | cons line rest =>
    rw [hl] at h
    cases hp : parseForwarded line with
    | nil => rw [h hp, List.headD_cons, hp]
    | cons e es =>
      rw [List.headD_cons, List.flatMap_cons, hp]
      rfl

theorem Alike.header_eq (h : Alike req req') {name : Bytes}
    (hname : ∀ n, req.carrier.isName name n = true →
      originNames.all (fun o => !req.carrier.isName o n) = true) :
    req.header name = req'.header name := by
  have hfind : ∀ r : Request, r.carrier = req.carrier →
      r.header name = ((r.otherFields.find? fun f => req.carrier.isName name f.1).map
        (·.2)).getD [] := by
    intro r hr
    unfold Request.header Request.otherFields
    rw [List.find?_filter, hr]
    congr 3
    funext f
    cases hn : req.carrier.isName name f.1 with
    | true =>
      simp only [hname f.1 hn]
      rfl
    | false => simp
  rw [hfind req rfl, hfind req' h.carrier.symm, h.others]

theorem isName_other (carrier : Carrier) {name : Bytes} (hn : lower name ∉ originNames.map lower)
    (n : Bytes) (h : carrier.isName name n = true) :
    originNames.all (fun o => !carrier.isName o n) = true := by
  refine List.all_eq_true.mpr fun o ho => ?_
  have hne : lower name ≠ lower o := fun e => hn (e ▸ List.mem_map_of_mem ho)
  cases carrier with
  | snapshot _ | http1 _ | http2 _ | http3 =>
    simp only [Carrier.isName, beq_iff_eq] at h
    simp [Carrier.isName, h, hne]

theorem forwardedProto_eq (hp : fromTrustedProxy s req = true) (h : req.ShowsForwarded) :
    forwardedProto s req = if (req.proxyLists.forwarded.headD {}).proto ≠ [] then
      lower (req.proxyLists.forwarded.headD {}).proto
      else lower (req.proxyLists.protos.headD []) := by
  unfold forwardedProto
  rw [if_pos hp, h.headD_eq]
  dsimp only
  congr 1
  rw [show req.proxyLists.protos.headD [] = _ from (headD_items_header _ _).symm]
  split_ifs with hx
  · rfl
  · rw [not_not.mp hx]
    rfl

theorem forwardedHost_eq (hp : fromTrustedProxy s req = true) (h : req.ShowsForwarded) :
    forwardedHost s req = if (req.proxyLists.forwarded.headD {}).host ≠ [] then
      (req.proxyLists.forwarded.headD {}).host else req.proxyLists.hosts.headD [] := by
  unfold forwardedHost
  rw [if_pos hp, h.headD_eq]
  dsimp only
  congr 1
  rw [show req.proxyLists.hosts.headD [] = _ from (headD_items_header _ _).symm]
  split_ifs with hx
  · rfl
  · rw [not_not.mp hx]
    rfl

/-- No forged element is read: none is in the Forwarded list, and another list has one only if the
first Forwarded element of the proxies tells what it is asked for. -/
structure Harmless (forged chain : ProxyLists) : Prop where
  forwarded : forged.forwarded = []
  protos : forged.protos = [] ∨ (chain.forwarded.headD {}).proto ≠ []
  hosts : forged.hosts = [] ∨ (chain.forwarded.headD {}).host ≠ []

theorem ViaChain.forwardedProto_eq {forged chain : ProxyLists} (h : ViaChain s req forged chain)
    (hn : Harmless forged chain) (hf : req.ShowsForwarded) :
    forwardedProto s req = if (chain.forwarded.headD {}).proto ≠ [] then
      lower (chain.forwarded.headD {}).proto else lower (chain.protos.headD []) := by
  rw [Forwarding.forwardedProto_eq h.peer hf, h.lists]
  simp only [ProxyLists.append, hn.forwarded, List.nil_append]
  rcases hn.protos with hp | hp
  · rw [hp, List.nil_append]
  · rw [if_pos hp, if_pos hp]

theorem ViaChain.forwardedHost_eq {forged chain : ProxyLists} (h : ViaChain s req forged chain)
    (hn : Harmless forged chain) (hf : req.ShowsForwarded) :
    forwardedHost s req = if (chain.forwarded.headD {}).host ≠ [] then
      (chain.forwarded.headD {}).host else chain.hosts.headD [] := by
  rw [Forwarding.forwardedHost_eq h.peer hf, h.lists]
  simp only [ProxyLists.append, hn.forwarded, List.nil_append]
  rcases hn.hosts with hp | hp
  · rw [hp, List.nil_append]
  · rw [if_pos hp, if_pos hp]

/-- What a proxy with TLS in front of the server tells. -/
def toldByProxy : ProxyLists where
  forwarded := [⟨ascii "1.2.3.4", ascii "https", ascii "a.example"⟩]

def forgedOrigin : ProxyLists where
  forwarded := [⟨ascii "6.6.6.6", ascii "http", ascii "b.example"⟩]

def honestOrigin : Request :=
  relayedRequest [("forwarded", "for=1.2.3.4;proto=https;host=a.example")]

/-- The client sent an element of its own, and the proxy appended one. -/
def forgedRequest : Request :=
  relayedRequest [("forwarded",
    "for=6.6.6.6;proto=http;host=b.example, for=1.2.3.4;proto=https;host=a.example")]

theorem viaChain_oneProxy (forged : ProxyLists) (hpeer : fromTrustedProxy oneProxy req = true)
    (h : req.proxyLists = forged.append toldByProxy) :
    ViaChain oneProxy req forged toldByProxy := by
  refine ⟨hpeer, h, fun e hops he => ?_⟩
  obtain ⟨rfl, rfl⟩ := List.cons_eq_cons.mp he
  exact ⟨by decide +kernel, by simp⟩

/-- The client forged the other two fields, and the proxy told the same. -/
def otherForged : Request :=
  relayedRequest [("x-forwarded-proto", "http"), ("x-forwarded-host", "b.example"),
    ("Forwarded", "for=1.2.3.4;proto=https;host=a.example,"), ("forwarded", "")]

end Vortex.Forwarding
