/-
# The guard on connector URLs

`assert-safe-connector-url.ts`: the host of a connector's URL, or each address that its name
resolves to, is checked against the private, loopback and reserved ranges.  The classifiers of the
address library see through an IPv4 address inside an IPv6 address; the list of subnets beside them
is asked for IPv4 addresses only.
-/
import DigitalTrust.Json

namespace DigitalTrust.ConnectorUrlGuard

open Json

/-! ## Addresses -/

abbrev IPv4 := BitVec 32

abbrev IPv6 := BitVec 128

/-- An address of either family. -/
inductive Address where
  | v4 (a : IPv4)
  | v6 (x : IPv6)
  deriving DecidableEq

/-- The number of the address `a.b.c.d`. -/
def dotted (a b c d : ℕ) : ℕ := ((a * 256 + b) * 256 + c) * 256 + d

/-- Whether an address is in the subnet of the first `len` bits of `base`. -/
def inSubnet {w : ℕ} (x : BitVec w) (base len : ℕ) : Bool :=
  x.toNat / 2 ^ (w - len) = base / 2 ^ (w - len)

/-- The two forms in which an IPv6 address embeds an IPv4 address: `::ffff:0:0/96` and
`64:ff9b::/96`. -/
inductive Embeds : IPv6 → IPv4 → Prop
  | mapped (x : IPv6) (a : IPv4) (h : x.toNat = 0xffff * 2 ^ 32 + a.toNat) : Embeds x a
  | nat64 (x : IPv6) (a : IPv4) (h : x.toNat = 0x64ff9b * 2 ^ 96 + a.toNat) : Embeds x a

/-- A classifier of the address library, for both families: it sees through embeddings. -/
structure Classifier where
  v4 : IPv4 → Bool
  v6 : IPv6 → Bool
  seesThrough : ∀ x a, Embeds x a → v6 x = v4 a

/-- What the guard calls of the address library; a subnet is given by its base and the length of its
mask. -/
structure AddressLibrary where
  isPrivate : Classifier
  isLoopback : Classifier
  isLinkLocal : Classifier
  isUnspecified : Classifier
  isBroadcast : Classifier
  isMulticast : Classifier
  isCGNAT : Classifier
  isDocumentation : IPv6 → Bool
  isHostInSubnet : IPv4 → ℕ × ℕ → Bool
  documentation : ∀ x, isDocumentation x = inSubnet x (0x20010db8 * 2 ^ 96) 32

/-! ## Disallowed addresses -/

def ipv4DisallowedSubnets : List (ℕ × ℕ) :=
  [(dotted 0 0 0 0, 8), (dotted 192 0 0 0, 24), (dotted 192 0 2 0, 24), (dotted 198 18 0 0, 15),
    (dotted 198 51 100 0, 24), (dotted 203 0 113 0, 24), (dotted 240 0 0 0, 4)]

/-- One of the classifiers applies to an IPv4 address. -/
def classified (lib : AddressLibrary) (a : IPv4) : Bool :=
  lib.isPrivate.v4 a || lib.isLoopback.v4 a || lib.isLinkLocal.v4 a || lib.isUnspecified.v4 a ||
    lib.isBroadcast.v4 a || lib.isMulticast.v4 a || lib.isCGNAT.v4 a

def isDisallowedIPv4 (lib : AddressLibrary) (a : IPv4) : Bool :=
  classified lib a || ipv4DisallowedSubnets.any fun subnet => lib.isHostInSubnet a subnet

def isDisallowedIPv6 (lib : AddressLibrary) (x : IPv6) : Bool :=
  lib.isLoopback.v6 x || lib.isUnspecified.v6 x || lib.isLinkLocal.v6 x || lib.isMulticast.v6 x ||
    lib.isPrivate.v6 x || lib.isCGNAT.v6 x || lib.isBroadcast.v6 x || lib.isDocumentation x

/-! ## URLs -/

structure Url where
  protocol : Text
  hostname : Text

/-- The runtime: `new URL`, `isIP` with the family and number of an address, and `lookup`; `none` is
an exception, a text that is not an address, and a failed lookup. -/
structure Runtime where
  parseUrl : Text → Option Url
  address : Text → Option Address
  lookup : Text → Option (List Text)

/-- `hostname.replace(/^\[|\]$/g, '')`. -/
def withoutBrackets (hostname : Text) : Text :=
  let opened := if hostname.head? = some '[' then hostname.tail else hostname
  if opened.getLast? = some ']' then opened.dropLast else opened

/-- `isDisallowedAddress`; an address of an unknown family is disallowed. -/
def isDisallowedAddress (lib : AddressLibrary) (rt : Runtime) (address : Text) : Bool :=
  match rt.address address with
  | some (.v4 a) => isDisallowedIPv4 lib a
  | some (.v6 x) => isDisallowedIPv6 lib x
  | none => true

def resolveHostnameAddresses (rt : Runtime) (hostname : Text) : Except String (List Text) :=
  match rt.lookup hostname with
  | some addresses => .ok addresses
  | none => .error "Connector endpoint hostname could not be resolved."

/-- `isIP(hostname) ? [hostname] : await resolveHostnameAddresses(hostname)`. -/
def addressesOf (rt : Runtime) (hostname : Text) : Except String (List Text) :=
  if (rt.address hostname).isSome then .ok [hostname] else resolveHostnameAddresses rt hostname

def https : Text := "https:".toList

def reservedAddress : String :=
  "Connector endpoint resolves to a private, loopback, or reserved network address."

/-- `assertSafeConnectorUrl`; an error is the message of an `UnprocessableEntityException`. -/
def assertSafeConnectorUrl (lib : AddressLibrary) (rt : Runtime) (rawUrl : Text) :
    Except String Unit :=
  match rt.parseUrl rawUrl with
  | none => .error "Connector endpoint URL is not a valid URL."
  | some url =>
    if url.protocol ≠ https then .error "Connector endpoint URL must use https."
    else do
      let addresses ← addressesOf rt (withoutBrackets url.hostname)
      if addresses.length = 0 then .error "Connector endpoint hostname could not be resolved."
      else if addresses.any (isDisallowedAddress lib rt) then
        .error reservedAddress
      else .ok ()

def Rejects (lib : AddressLibrary) (rt : Runtime) (rawUrl : Text) : Prop :=
  ∃ message, assertSafeConnectorUrl lib rt rawUrl = .error message

/-! ## Embedded addresses -/

variable {lib : AddressLibrary} {rt : Runtime} {x : IPv6} {a : IPv4}

/-- No embedded address is in the documentation range. -/
theorem isDocumentation_of_embeds (h : Embeds x a) : lib.isDocumentation x = false := by
  have ha : a.toNat < 2 ^ 32 := a.isLt
  rw [lib.documentation, inSubnet, decide_eq_false_iff_not]
  cases h with
  | mapped h =>
    rw [h]
    omega
  | nat64 h =>
    rw [h]
    omega

/-- An IPv6 address that embeds an IPv4 address is disallowed exactly if a classifier applies. -/
theorem isDisallowedIPv6_of_embeds (h : Embeds x a) :
    isDisallowedIPv6 lib x = classified lib a := by
  rw [isDisallowedIPv6, isDocumentation_of_embeds h, lib.isLoopback.seesThrough x a h,
    lib.isUnspecified.seesThrough x a h, lib.isLinkLocal.seesThrough x a h,
    lib.isMulticast.seesThrough x a h, lib.isPrivate.seesThrough x a h,
    lib.isCGNAT.seesThrough x a h, lib.isBroadcast.seesThrough x a h, classified, Bool.or_false]
  ac_rfl

theorem isDisallowedAddress_of_embeds {t : Text} (ht : rt.address t = some (.v6 x))
    (h : Embeds x a) : isDisallowedAddress lib rt t = classified lib a := by
  rw [isDisallowedAddress, ht]
  exact isDisallowedIPv6_of_embeds h

/-- The guard rejects an https URL exactly if one of the addresses of its host is disallowed. -/
theorem rejects_iff {rawUrl : Text} {url : Url} {addresses : List Text}
    (hurl : rt.parseUrl rawUrl = some url)
    (haddresses : addressesOf rt (withoutBrackets url.hostname) = .ok addresses)
    (hne : addresses ≠ []) :
    Rejects lib rt rawUrl ↔ url.protocol ≠ https ∨
      ∃ t ∈ addresses, isDisallowedAddress lib rt t = true := by
  have hlength : addresses.length ≠ 0 := fun h => hne (List.length_eq_zero_iff.mp h)
  rw [← List.any_eq_true]
  by_cases hprotocol : url.protocol = https
  · cases hany : addresses.any (isDisallowedAddress lib rt) with
    | true =>
      refine iff_of_true ⟨reservedAddress, ?_⟩ (.inr rfl)
      simp only [assertSafeConnectorUrl, hurl, hprotocol, ne_eq, not_true_eq_false, if_false,
        haddresses, bind, Except.bind, hlength, hany, if_true]
    | false =>
      refine iff_of_false (fun ⟨message, hmessage⟩ => ?_) (by simp [hprotocol])
      simp only [assertSafeConnectorUrl, hurl, hprotocol, ne_eq, not_true_eq_false, if_false,
        haddresses, bind, Except.bind, hlength, hany, Bool.false_eq_true] at hmessage
      cases hmessage
  · refine iff_of_true ⟨"Connector endpoint URL must use https.", ?_⟩ (.inl hprotocol)
    simp only [assertSafeConnectorUrl, hurl, ne_eq, hprotocol, not_false_eq_true, if_true]

/-- Of an address that embeds an IPv4 address, written in the URL or found by resolution: the guard
rejects the URL if and only if a classifier applies to the IPv4 address, unless it rejects it for
its protocol or another address. -/
theorem embedded_rejected_iff (lib : AddressLibrary) (rt : Runtime) (x : IPv6) (a : IPv4)
    (hembeds : Embeds x a) (t : Text) (ht : rt.address t = some (.v6 x)) (rawUrl : Text) (url : Url)
    (hurl : rt.parseUrl rawUrl = some url) :
    (withoutBrackets url.hostname = t →
      (Rejects lib rt rawUrl ↔ url.protocol ≠ https ∨ classified lib a = true)) ∧
    ∀ addresses, rt.address (withoutBrackets url.hostname) = none →
      rt.lookup (withoutBrackets url.hostname) = some addresses → t ∈ addresses →
      (Rejects lib rt rawUrl ↔ url.protocol ≠ https ∨ classified lib a = true ∨
        ∃ t' ∈ addresses, t' ≠ t ∧ isDisallowedAddress lib rt t' = true) := by
  refine ⟨fun hhost => ?_, fun addresses hname hlookup hmem => ?_⟩
  · have haddresses : addressesOf rt (withoutBrackets url.hostname) = .ok [t] := by
      simp [addressesOf, hhost, ht]
    rw [rejects_iff hurl haddresses (by simp)]
    simp [isDisallowedAddress_of_embeds ht hembeds]
  · have hne : addresses ≠ [] := List.ne_nil_of_mem hmem
    have haddresses : addressesOf rt (withoutBrackets url.hostname) = .ok addresses := by
      simp [addressesOf, hname, resolveHostnameAddresses, hlookup]
    rw [rejects_iff hurl haddresses hne]
    -- the address itself, and the others
    have hsplit : (∃ t' ∈ addresses, isDisallowedAddress lib rt t' = true) ↔
        classified lib a = true ∨
          ∃ t' ∈ addresses, t' ≠ t ∧ isDisallowedAddress lib rt t' = true := by
      rw [← isDisallowedAddress_of_embeds ht hembeds]
      constructor
      · rintro ⟨t', hmem', hdis⟩
        by_cases he : t' = t
        · exact .inl (he ▸ hdis)
        · exact .inr ⟨t', hmem', he, hdis⟩
      · rintro (hdis | ⟨t', hmem', -, hdis⟩)
        · exact ⟨t, hmem, hdis⟩
        · exact ⟨t', hmem', hdis⟩
    rw [hsplit]

/-! ## The library as it is documented -/

/-- The IPv4 address that an IPv6 address embeds. -/
def embeddedIPv4 (x : IPv6) : Option IPv4 :=
  if x.toNat / 2 ^ 32 = 0xffff ∨ x.toNat / 2 ^ 32 = 0x64ff9b * 2 ^ 64 then
    some (BitVec.ofNat 32 (x.toNat % 2 ^ 32))
  else none

/-- Every embedding is recognised. -/
theorem embeddedIPv4_of_embeds (h : Embeds x a) : embeddedIPv4 x = some a := by
  have ha : a.toNat < 2 ^ 32 := a.isLt
  have hlow : BitVec.ofNat 32 a.toNat = a := by simp
  cases h with
  | mapped h =>
    have hhigh : x.toNat / 2 ^ 32 = 0xffff := by omega
    have hmod : x.toNat % 2 ^ 32 = a.toNat := by omega
    rw [embeddedIPv4, if_pos (.inl hhigh), hmod, hlow]
  | nat64 h =>
    have hhigh : x.toNat / 2 ^ 32 = 0x64ff9b * 2 ^ 64 := by omega
    have hmod : x.toNat % 2 ^ 32 = a.toNat := by omega
    rw [embeddedIPv4, if_pos (.inr hhigh), hmod, hlow]

/-- The classifier of subnets of both families. -/
def ofSubnets (v4 v6 : List (ℕ × ℕ)) : Classifier where
  v4 a := v4.any fun subnet => inSubnet a subnet.1 subnet.2
  v6 x := ((embeddedIPv4 x).map fun a => v4.any fun subnet => inSubnet a subnet.1 subnet.2).getD
    (v6.any fun subnet => inSubnet x subnet.1 subnet.2)
  seesThrough x a h := by rw [embeddedIPv4_of_embeds h]; rfl

/-- The ranges that the comments of the guard name. -/
def ipAddress : AddressLibrary where
  isPrivate := ofSubnets [(dotted 10 0 0 0, 8), (dotted 172 16 0 0, 12), (dotted 192 168 0 0, 16)]
    [(0xfc * 2 ^ 120, 7)]
  isLoopback := ofSubnets [(dotted 127 0 0 0, 8)] [(1, 128)]
  isLinkLocal := ofSubnets [(dotted 169 254 0 0, 16)] [(0xfe80 * 2 ^ 112, 10)]
  isUnspecified := ofSubnets [(dotted 0 0 0 0, 32)] [(0, 128)]
  isBroadcast := ofSubnets [(dotted 255 255 255 255, 32)] []
  isMulticast := ofSubnets [(dotted 224 0 0 0, 4)] [(0xff * 2 ^ 120, 8)]
  isCGNAT := ofSubnets [(dotted 100 64 0 0, 10)] []
  isDocumentation x := inSubnet x (0x20010db8 * 2 ^ 96) 32
  isHostInSubnet a subnet := inSubnet a subnet.1 subnet.2
  documentation _ := rfl

/-- The address that embeds `a`. -/
def mapped (a : ℕ) : IPv6 := BitVec.ofNat 128 (0xffff * 2 ^ 32 + a)

/-- A runtime with one URL, whose host is this IPv6 address in brackets. -/
def literalRuntime (rawUrl literal : Text) (x : IPv6) : Runtime where
  parseUrl t := if t = rawUrl then some ⟨https, '[' :: literal ++ [']']⟩ else none
  address t := if t = literal then some (.v6 x) else none
  lookup _ := none

theorem parseUrl_literalRuntime (rawUrl literal : Text) (x : IPv6) :
    (literalRuntime rawUrl literal x).parseUrl rawUrl =
      some ⟨https, '[' :: literal ++ [']']⟩ := if_pos rfl

/-- A runtime with one URL, whose host is a name that resolves to this IPv6 address. -/
def resolvingRuntime (rawUrl literal : Text) (x : IPv6) : Runtime where
  parseUrl t := if t = rawUrl then some ⟨https, "agent.example".toList⟩ else none
  address t := if t = literal then some (.v6 x) else none
  lookup _ := some [literal]

/-- The benchmarking address 198.18.0.1 is disallowed; embedded as `::ffff:c612:1` it gets past the
guard, in the URL and from name resolution. -/
theorem embedded_accepted :
    isDisallowedIPv4 ipAddress (BitVec.ofNat 32 (dotted 198 18 0 1)) = true ∧
      Embeds (mapped (dotted 198 18 0 1)) (BitVec.ofNat 32 (dotted 198 18 0 1)) ∧
      assertSafeConnectorUrl ipAddress
        (literalRuntime "https://[::ffff:198.18.0.1]/".toList "::ffff:c612:1".toList
          (mapped (dotted 198 18 0 1))) "https://[::ffff:198.18.0.1]/".toList = .ok () ∧
      assertSafeConnectorUrl ipAddress
        (resolvingRuntime "https://agent.example/".toList "::ffff:c612:1".toList
          (mapped (dotted 198 18 0 1))) "https://agent.example/".toList = .ok () :=
  ⟨by decide +kernel, .mapped _ _ (by decide +kernel), by decide +kernel, by decide +kernel⟩

/-- The loopback address, embedded: the guard rejects it where it stands in the URL. -/
theorem embedded_rejected_iff_loopback :
    Embeds (mapped (dotted 127 0 0 1)) (BitVec.ofNat 32 (dotted 127 0 0 1)) ∧
      Rejects ipAddress (literalRuntime "https://[::ffff:127.0.0.1]/".toList
        "::ffff:7f00:1".toList (mapped (dotted 127 0 0 1)))
        "https://[::ffff:127.0.0.1]/".toList := by
  have hembeds : Embeds (mapped (dotted 127 0 0 1)) (BitVec.ofNat 32 (dotted 127 0 0 1)) :=
    .mapped _ _ (by decide +kernel)
  have hiff := (embedded_rejected_iff ipAddress
    (literalRuntime "https://[::ffff:127.0.0.1]/".toList "::ffff:7f00:1".toList
      (mapped (dotted 127 0 0 1))) _ _ hembeds "::ffff:7f00:1".toList (by decide +kernel)
    "https://[::ffff:127.0.0.1]/".toList _ (parseUrl_literalRuntime _ _ _)).1 (by decide +kernel)
  exact ⟨hembeds, hiff.mpr (.inr (by decide +kernel))⟩

end DigitalTrust.ConnectorUrlGuard
