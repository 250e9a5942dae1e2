import HoprStrategy.Selector
import Mathlib.Data.Finset.Dedup
import Mathlib.Data.List.Lex
import Mathlib.Data.List.Sort
import Mathlib.Tactic

/-!
# Subnet buckets

The locality of a peer is derived from the set of its multiaddresses, which is
read in whatever order the set is iterated in.  Addresses are sorted; of the
names the first one seen is kept.
-/

namespace HoprStrategy.ChannelLifecycle

abbrev V4Prefix : Type := Vector UInt8 3

abbrev V6Prefix : Type := Vector UInt8 6

/-- The first three octets and the last. -/
structure Ipv4Addr where
  network : V4Prefix
  host : UInt8
  deriving DecidableEq

/-- The first six octets and the others. -/
structure Ipv6Addr where
  network : V6Prefix
  host : Vector UInt8 10
  deriving DecidableEq

inductive Protocol where
  | ip4 (addr : Ipv4Addr)
  | ip6 (addr : Ipv6Addr)
  | dns (host : String)
  | dns4 (host : String)
  | dns6 (host : String)
  | other (bytes : List UInt8)
  deriving DecidableEq

abbrev Multiaddr : Type := List Protocol

namespace SubnetBucket

/-- What the loop over the multiaddresses has collected. -/
structure Seen where
  v4s : List V4Prefix
  v6s : List V6Prefix
  dns : Option String

variable (toLowercase : String → String)

def Seen.name (seen : Seen) (host : String) : Seen :=
  if seen.dns.isNone then { seen with dns := some (toLowercase host) } else seen

def Seen.observe (seen : Seen) : Protocol → Seen
  | .ip4 addr => { seen with v4s := seen.v4s ++ [addr.network] }
  | .ip6 addr => { seen with v6s := seen.v6s ++ [addr.network] }
  | .dns host => seen.name toLowercase host
  | .dns4 host => seen.name toLowercase host
  | .dns6 host => seen.name toLowercase host
  | .other _ => seen

/-- Octet by octet. -/
def lexKey {size : ℕ} (octets : Vector UInt8 size) : List ℕ :=
  octets.toList.map UInt8.toNat

def sortUnstable {size : ℕ} (prefixes : List (Vector UInt8 size)) :
    List (Vector UInt8 size) :=
  prefixes.insertionSort fun left right => lexKey left ≤ lexKey right

def Seen.bucket (seen : Seen) : SubnetBucket :=
  match sortUnstable seen.v4s, sortUnstable seen.v6s, seen.dns with
  | network :: _, _, _ => .v4Prefix network
  | [], network :: _, _ => .v6Prefix network
  | [], [], some name => .dns name
  | [], [], none => .unknown

def Seen.observeAll (seen : Seen) (ma : Multiaddr) : Seen :=
  ma.foldl (Seen.observe toLowercase) seen

/-- `addrs` lists the set in the order in which it is iterated. -/
def fromMultiaddrs (addrs : List Multiaddr) : SubnetBucket :=
  let seen : Seen := addrs.foldl (Seen.observeAll toLowercase) ⟨[], [], none⟩
  seen.bucket

/-! ## What is collected -/

def v4Network : Protocol → Option V4Prefix
  | .ip4 addr => some addr.network
  | _ => none

def v6Network : Protocol → Option V6Prefix
  | .ip6 addr => some addr.network
  | _ => none

/-- The lowercased name of a protocol which has one. -/
def dnsName : Protocol → Option String
  | .dns host | .dns4 host | .dns6 host => some (toLowercase host)
  | _ => none

def collected (protocols : List Protocol) : Seen where
  v4s := protocols.filterMap v4Network
  v6s := protocols.filterMap v6Network
  dns := protocols.findSome? (dnsName toLowercase)

theorem foldl_observe (seen : Seen) (protocols : List Protocol) :
    protocols.foldl (Seen.observe toLowercase) seen =
      ⟨seen.v4s ++ (collected toLowercase protocols).v4s,
        seen.v6s ++ (collected toLowercase protocols).v6s,
        seen.dns.or (collected toLowercase protocols).dns⟩ := by
  induction protocols generalizing seen with
  | nil => simp [collected]
  | cons protocol rest ih =>
      rw [List.foldl_cons, ih]
      cases hdns : seen.dns <;> cases protocol <;>
        simp [collected, Seen.observe, Seen.name, List.filterMap_cons,
          List.findSome?_cons, v4Network, v6Network, dnsName, hdns]

theorem fromMultiaddrs_eq (addrs : List Multiaddr) :
    fromMultiaddrs toLowercase addrs =
      (collected toLowercase addrs.flatten).bucket := by
  have hflat : ∀ seen : Seen,
      addrs.foldl (Seen.observeAll toLowercase) seen =
        addrs.flatten.foldl (Seen.observe toLowercase) seen := by
    intro seen
    exact (List.foldl_flatten ..).symm
  rw [fromMultiaddrs, hflat, foldl_observe]
  rfl

/-! ## Two orders of one set -/

/-- An order in which the set can be iterated. -/
structure Iterates (order : List Multiaddr) (addrs : Finset Multiaddr) :
    Prop where
  nodup : order.Nodup
  toFinset : order.toFinset = addrs

/-- The name which an address contributes when it is the first to have one. -/
def firstName (addr : Multiaddr) : Option String :=
  addr.findSome? (dnsName toLowercase)

/-- Some address is an IP address, or all names are the same. -/
def Settled (addrs : Finset Multiaddr) : Prop :=
  (∃ ma ∈ addrs, ∃ addr, .ip4 addr ∈ ma) ∨
    (∃ ma ∈ addrs, ∃ addr, .ip6 addr ∈ ma) ∨
    ∀ ma ∈ addrs, ∀ other ∈ addrs, ∀ name name',
      firstName toLowercase ma = some name →
      firstName toLowercase other = some name' → name = name'

theorem lexKey_injective {size : ℕ} :
    Function.Injective (lexKey : Vector UInt8 size → List ℕ) := by
  intro left right hkey
  have hlist : left.toList = right.toList :=
    List.map_injective_iff.mpr (fun _ _ => UInt8.toNat_inj.mp) hkey
  exact Vector.toList_inj.mp hlist

theorem sortUnstable_eq_of_perm {size : ℕ}
    {left right : List (Vector UInt8 size)} (hperm : left.Perm right) :
    sortUnstable left = sortUnstable right := by
  have hsorted : ∀ prefixes : List (Vector UInt8 size),
      (sortUnstable prefixes).Pairwise
        fun first second => lexKey first ≤ lexKey second := by
    intro prefixes
    have htotal : Std.Total fun first second : Vector UInt8 size =>
        lexKey first ≤ lexKey second :=
      ⟨fun first second => le_total (lexKey first) (lexKey second)⟩
    have htrans : IsTrans (Vector UInt8 size) fun first second =>
        lexKey first ≤ lexKey second := ⟨fun _ _ _ => le_trans⟩
    exact List.pairwise_insertionSort _ prefixes
  refine List.Perm.eq_of_pairwise ?_ (hsorted left) (hsorted right) ?_
  · intro first second _ _ hle hge
    exact lexKey_injective (le_antisymm hle hge)
  · exact (List.perm_insertionSort _ left).trans
      (hperm.trans (List.perm_insertionSort _ right).symm)

theorem exists_sortUnstable_cons {size : ℕ}
    {prefixes : List (Vector UInt8 size)} {octets : Vector UInt8 size}
    (hmem : octets ∈ prefixes) :
    ∃ first rest, sortUnstable prefixes = first :: rest := by
  apply List.exists_cons_of_ne_nil
  exact List.ne_nil_of_mem ((List.mem_insertionSort _).mpr hmem)

theorem mem_v4s {protocols : List Protocol} {addr : Ipv4Addr}
    (hmem : .ip4 addr ∈ protocols) :
    addr.network ∈ (collected toLowercase protocols).v4s :=
  List.mem_filterMap.mpr ⟨_, hmem, rfl⟩

theorem mem_v6s {protocols : List Protocol} {addr : Ipv6Addr}
    (hmem : .ip6 addr ∈ protocols) :
    addr.network ∈ (collected toLowercase protocols).v6s :=
  List.mem_filterMap.mpr ⟨_, hmem, rfl⟩

theorem dns_flatten (addrs : List Multiaddr) :
    (collected toLowercase addrs.flatten).dns =
      addrs.findSome? (firstName toLowercase) := by
  change addrs.flatten.findSome? (dnsName toLowercase) = _
  induction addrs with
  | nil => rfl
  | cons ma rest ih =>
      rw [List.flatten_cons, List.findSome?_append, ih, List.findSome?_cons]
      unfold firstName
      cases ma.findSome? (dnsName toLowercase) with
      | none => rfl
      | some name => rfl

theorem Iterates.perm {first second : List Multiaddr}
    {addrs : Finset Multiaddr} (hfirst : Iterates first addrs)
    (hsecond : Iterates second addrs) : first.Perm second :=
  List.perm_of_nodup_nodup_toFinset_eq hfirst.nodup hsecond.nodup
    (hfirst.toFinset.trans hsecond.toFinset.symm)

theorem Iterates.mem {order : List Multiaddr} {addrs : Finset Multiaddr}
    (horder : Iterates order addrs) {ma : Multiaddr} :
    ma ∈ order ↔ ma ∈ addrs := by
  rw [← horder.toFinset, List.mem_toFinset]

/-- The sorted networks of two orders are the same; so are the buckets, unless
it comes to the names. -/
theorem fromMultiaddrs_perm {first second : List Multiaddr}
    (hperm : first.Perm second)
    (hsettled : (∃ ma ∈ first, ∃ addr, .ip4 addr ∈ ma) ∨
      (∃ ma ∈ first, ∃ addr, .ip6 addr ∈ ma) ∨
      first.findSome? (firstName toLowercase) =
        second.findSome? (firstName toLowercase)) :
    fromMultiaddrs toLowercase first = fromMultiaddrs toLowercase second := by
  have hflat : first.flatten.Perm second.flatten := hperm.flatten
  have hv4s := sortUnstable_eq_of_perm (hflat.filterMap v4Network)
  have hv6s := sortUnstable_eq_of_perm (hflat.filterMap v6Network)
  rw [fromMultiaddrs_eq, fromMultiaddrs_eq]
  unfold Seen.bucket
  simp only [collected] at hv4s hv6s ⊢
  rw [hv4s, hv6s]
  rcases hsettled with ⟨ma, hma, addr, haddr⟩ | ⟨ma, hma, addr, haddr⟩ | hname
  · have hmem := mem_v4s toLowercase (List.mem_flatten_of_mem hma haddr)
    obtain ⟨network, rest, hsorted⟩ := exists_sortUnstable_cons hmem
    simp only [collected, hv4s] at hsorted
    rw [hsorted]
  · have hmem := mem_v6s toLowercase (List.mem_flatten_of_mem hma haddr)
    obtain ⟨network, rest, hsorted⟩ := exists_sortUnstable_cons hmem
    simp only [collected, hv6s] at hsorted
    rw [hsorted]
    cases sortUnstable (List.filterMap v4Network second.flatten) with
    | nil => rfl
    | cons network' rest' => rfl
  · have hdns : first.flatten.findSome? (dnsName toLowercase) =
        second.flatten.findSome? (dnsName toLowercase) :=
      (dns_flatten toLowercase first).trans
        (hname.trans (dns_flatten toLowercase second).symm)
    rw [hdns]

/-- Names which agree are found in every order. -/
theorem findSome?_firstName_eq {first second : List Multiaddr}
    (hperm : first.Perm second)
    (hagree : ∀ ma ∈ first, ∀ other ∈ first, ∀ name name',
      firstName toLowercase ma = some name →
      firstName toLowercase other = some name' → name = name') :
    first.findSome? (firstName toLowercase) =
      second.findSome? (firstName toLowercase) := by
  cases hfirst : first.findSome? (firstName toLowercase) with
  | none =>
      rw [List.findSome?_eq_none_iff] at hfirst
      rw [eq_comm, List.findSome?_eq_none_iff]
      intro ma hma
      exact hfirst ma (hperm.mem_iff.mpr hma)
  | some name =>
      obtain ⟨ma, hma, hname⟩ := List.exists_of_findSome?_eq_some hfirst
      cases hsecond : second.findSome? (firstName toLowercase) with
      | none =>
          rw [List.findSome?_eq_none_iff] at hsecond
          rw [hsecond ma (hperm.mem_iff.mp hma)] at hname
          cases hname
      | some name' =>
          obtain ⟨other, hother, hname'⟩ :=
            List.exists_of_findSome?_eq_some hsecond
          rw [hagree ma hma other (hperm.mem_iff.mpr hother) name name' hname
            hname']

/-- With no IP address the bucket is the name of the address which comes
first. -/
theorem fromMultiaddrs_cons_name {ma : Multiaddr} {rest : List Multiaddr}
    {name : String} (hname : firstName toLowercase ma = some name)
    (hv4 : ¬ ∃ other ∈ ma :: rest, ∃ addr, .ip4 addr ∈ other)
    (hv6 : ¬ ∃ other ∈ ma :: rest, ∃ addr, .ip6 addr ∈ other) :
    fromMultiaddrs toLowercase (ma :: rest) = .dns name := by
  have hv4s : (collected toLowercase (ma :: rest).flatten).v4s = [] := by
    refine List.filterMap_eq_nil_iff.mpr ?_
    intro protocol hmem
    obtain ⟨other, hother, hprotocol⟩ := List.mem_flatten.mp hmem
    cases protocol with
    | ip4 addr => exact absurd ⟨other, hother, addr, hprotocol⟩ hv4
    | _ => rfl
  have hv6s : (collected toLowercase (ma :: rest).flatten).v6s = [] := by
    refine List.filterMap_eq_nil_iff.mpr ?_
    intro protocol hmem
    obtain ⟨other, hother, hprotocol⟩ := List.mem_flatten.mp hmem
    cases protocol with
    | ip6 addr => exact absurd ⟨other, hother, addr, hprotocol⟩ hv6
    | _ => rfl
  have hdns : (collected toLowercase (ma :: rest).flatten).dns = some name := by
    rw [dns_flatten, List.findSome?_cons, hname]
  rw [fromMultiaddrs_eq, Seen.bucket, hv4s, hv6s, hdns]
  rfl

/-- An address of a set can come first. -/
theorem exists_iterates_cons {addrs : Finset Multiaddr} {ma : Multiaddr}
    (hma : ma ∈ addrs) : ∃ rest, Iterates (ma :: rest) addrs := by
  refine ⟨(addrs.erase ma).toList, ?_, ?_⟩
  · simp [Finset.nodup_toList]
  · simp [Finset.insert_erase hma]

end SubnetBucket

open SubnetBucket in
/-- The bucket of a set of addresses is the same in every order exactly when an
IP address settles it or all names agree. -/
theorem subnetBucket_stable_iff (toLowercase : String → String)
    (addrs : Finset Multiaddr) :
    (∀ first second, Iterates first addrs → Iterates second addrs →
      fromMultiaddrs toLowercase first = fromMultiaddrs toLowercase second) ↔
      Settled toLowercase addrs := by
  constructor
  · intro hstable
    by_contra hunsettled
    simp only [Settled, not_or] at hunsettled
    obtain ⟨hv4, hv6, hnames⟩ := hunsettled
    push Not at hnames
    obtain ⟨ma, hma, other, hother, name, name', hname, hname', hdiffer⟩ :=
      hnames
    obtain ⟨rest, hfirst⟩ := exists_iterates_cons hma
    obtain ⟨rest', hsecond⟩ := exists_iterates_cons hother
    have hbuckets := hstable _ _ hfirst hsecond
    rw [fromMultiaddrs_cons_name toLowercase hname
        (by simpa only [hfirst.mem] using hv4)
        (by simpa only [hfirst.mem] using hv6),
      fromMultiaddrs_cons_name toLowercase hname'
        (by simpa only [hsecond.mem] using hv4)
        (by simpa only [hsecond.mem] using hv6)] at hbuckets
    cases hbuckets
    exact hdiffer rfl
  · intro hsettled first second hfirst hsecond
    have hperm := hfirst.perm hsecond
    apply fromMultiaddrs_perm toLowercase hperm
    rcases hsettled with hv4 | hv6 | hnames
    · exact Or.inl (by simpa only [hfirst.mem] using hv4)
    · exact Or.inr (Or.inl (by simpa only [hfirst.mem] using hv6))
    · refine Or.inr (Or.inr (findSome?_firstName_eq toLowercase hperm ?_))
      intro ma hma other hother
      exact hnames ma (hfirst.mem.mp hma) other (hfirst.mem.mp hother)

/-- A peer which announces two names. -/
def twoNames : List Multiaddr := [[.dns4 "a.example"], [.dns4 "b.example"]]

theorem subnetBucket_unstable :
    ¬ ∀ (toLowercase : String → String) (addrs : Finset Multiaddr)
      (first second : List Multiaddr), SubnetBucket.Iterates first addrs →
      SubnetBucket.Iterates second addrs →
      SubnetBucket.fromMultiaddrs toLowercase first =
        SubnetBucket.fromMultiaddrs toLowercase second := by
  intro hclaim
  have hbuckets := hclaim String.toLower twoNames.toFinset twoNames
    twoNames.reverse ⟨by decide, rfl⟩ ⟨by decide, by decide⟩
  revert hbuckets
  decide +kernel

end HoprStrategy.ChannelLifecycle
