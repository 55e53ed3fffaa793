import Mathlib
import TecTac.RemoteFetch

/-!
# The guard of a fetch

Whatever the name server and the servers answer, a request goes to an address of the resolution of its own hop, and every address of that resolution has passed the guard. There are at
most six hops, and the token of a bearer is sent for the one URL it was asked for.
-/

namespace TecTac

namespace RemoteFetch

open Raise

/-- An address that may be connected to. -/
def Allowed (trust : Trust) (a : IpAddress) : Prop :=
  a.isLoopback = false ∧ a.isLinkLocal = false ∧ a.isMulticast = false ∧ a.isReserved = false ∧ a.isUnspecified = false ∧
    (trust ≠ .internal → a.isPrivate = false ∧ a.isShared = false)

/-- A connection ends at an address. -/
def Connection.goesTo (a : IpAddress) : Connection → Prop
  | .direct host _ => host = a.text
  | .tunnel _ _ host _ => host = pinnedHost a
  | .relayed _ _ host _ => host = pinnedHost a

/-- The hop with a number was resolved to addresses that are all allowed, and its requests go to these only. -/
def Guarded (w : World) (trust : Trust) (number : Nat) (hop : Hop) : Prop :=
  ∃ parsed port found, w.urlparse hop.url = some parsed ∧ lookUp w number (hostName parsed) port = .ok found ∧ (∀ a ∈ found, a.unmapped = a ∧ Allowed trust a) ∧
    ∀ request ∈ hop.requests, request.url = hop.url ∧ ∃ a ∈ found, request.connection.goesTo a

/-- The token of a bearer is sent for one URL only, to an address itself or through a tunnel to it. -/
def SentOnlyTo (url bearer : String) (hop : Hop) : Prop :=
  ∀ request ∈ hop.requests, request.bearer = some bearer ∧ request.url = stripText url ∧
    ∀ proxyHost proxyPort host port, request.connection ≠ .relayed proxyHost proxyPort host port

namespace GuardAux

/-! ## The resolution -/

theorem allowed_of_checks {trust : Trust} {a : IpAddress} (hmeant : a.unmapped = a) (hblocked : alwaysBlocked a = false)
    (hprivate : trust ≠ .internal → privateAddress a = false) : Allowed trust a := by
  simp only [alwaysBlocked, hmeant, Bool.or_eq_false_iff] at hblocked
  obtain ⟨⟨⟨⟨hloopback, hlink⟩, hmulticast⟩, hreserved⟩, hunspecified⟩ := hblocked
  refine ⟨hloopback, hlink, hmulticast, hreserved, hunspecified, fun h => ?_⟩
  have := hprivate h
  simp only [privateAddress, hmeant, Bool.or_eq_false_iff] at this
  exact this

theorem unmapped_of_rowAddress {row : List Char} {a : IpAddress} (h : rowAddress row = some a) : a.unmapped = a := by
  rw [rowAddress, Option.map_eq_some_iff] at h
  obtain ⟨b, -, rfl⟩ := h
  exact IpAddress.unmapped_unmapped b

/-- Every address that is looked up is the one that is meant. -/
theorem unmapped_of_lookUp {w : World} {number : Nat} {host : List Char} {port : Nat} {found : List IpAddress} (h : lookUp w number host port = .ok found) :
    ∀ a ∈ found, a.unmapped = a := by
  unfold lookUp at h
  split at h
  · cases h
    intro a ha
    rw [List.mem_singleton.1 ha]
    exact IpAddress.unmapped_unmapped _
  · split at h
    · cases h
    · rename_i addresses haddresses
      cases h
      obtain ⟨rows, -, hrows⟩ := Option.bind_eq_some_iff.1 haddresses
      intro a ha
      rw [List.mem_dedup] at ha
      obtain ⟨row, -, hrow⟩ := mem_of_mapM_some hrows ha
      exact unmapped_of_rowAddress hrow

theorem cleanUrl_ok {w : World} {value : String} {url : String} {parsed : ParsedUrl} (h : cleanUrl w value = .ok (url, parsed)) :
    url = stripText value ∧ w.urlparse url = some parsed := by
  rw [cleanUrl] at h
  obtain ⟨parsed', hparsed, h⟩ := bind_ok h
  obtain ⟨_, -, h⟩ := bind_ok h
  obtain ⟨_, -, h⟩ := bind_ok h
  obtain ⟨_, -, h⟩ := bind_ok h
  cases h
  unfold parse at hparsed
  split at hparsed
  · cases hparsed
  · cases hparsed
    exact ⟨rfl, ‹_›⟩

/-- What a resolution that succeeds has looked up, and that the guard has let all of it through. -/
theorem resolveRemoteUrl_ok {w : World} {number : Nat} {value url : String} {trust : Trust} {parsed : ParsedUrl} {addresses : List IpAddress}
    (h : resolveRemoteUrl w number value trust = .ok (url, parsed, addresses)) :
    url = stripText value ∧ w.urlparse url = some parsed ∧ ∃ port found, lookUp w number (hostName parsed) port = .ok found ∧
      (∀ a ∈ found, a.unmapped = a ∧ Allowed trust a) ∧ ∀ a, a ∈ addresses ↔ a ∈ found := by
  rw [resolveRemoteUrl] at h
  obtain ⟨⟨url', parsed'⟩, hclean, h⟩ := bind_ok h
  obtain ⟨_, -, h⟩ := bind_ok h
  obtain ⟨port, -, h⟩ := bind_ok h
  obtain ⟨found, hfound, h⟩ := bind_ok h
  obtain ⟨_, -, h⟩ := bind_ok h
  obtain ⟨_, hblocked, h⟩ := bind_ok h
  obtain ⟨_, hprivate, h⟩ := bind_ok h
  cases h
  obtain ⟨hurl, hparsed⟩ := cleanUrl_ok hclean
  refine ⟨hurl, hparsed, _, found, hfound, fun a ha => ?_, fun a => (List.mergeSort_perm found keyLe).mem_iff⟩
  have hmeant := unmapped_of_lookUp hfound a ha
  have hnone := of_require hblocked
  rw [Bool.not_eq_true', List.any_eq_false] at hnone
  refine ⟨hmeant, allowed_of_checks hmeant (Bool.eq_false_iff.2 (hnone a ha)) fun htrust => ?_⟩
  have hnone := of_require hprivate
  rw [Bool.or_eq_true, beq_iff_eq, Bool.not_eq_true', List.any_eq_false] at hnone
  exact Bool.eq_false_iff.2 (hnone.resolve_left htrust a ha)

/-! ## The requests of a hop -/

theorem requestFor_spec (url : String) (parsed : ParsedUrl) (proxy : Option ParsedUrl) (bearer : Option String) (a : IpAddress) :
    (requestFor url parsed proxy bearer a).url = url ∧ (requestFor url parsed proxy bearer a).bearer = bearer ∧ (requestFor url parsed proxy bearer a).connection.goesTo a := by
  cases proxy with
  | none => exact ⟨rfl, rfl, rfl⟩
  | some proxy =>
    refine ⟨rfl, rfl, ?_⟩
    simp only [requestFor, pinnedProxyGet]
    split <;> rfl

/-- Every request is made for one of the addresses. -/
theorem mem_tryAddresses {w : World} {number : Nat} {make : IpAddress → Request} {addresses : List IpAddress} {request : Request}
    (h : request ∈ (tryAddresses w number make addresses).1) : ∃ a ∈ addresses, request = make a := by
  induction addresses with
  | nil => cases h
  | cons address rest ih =>
    unfold tryAddresses at h
    split at h
    · rcases List.mem_cons.1 h with rfl | h
      · exact ⟨address, List.mem_cons_self, rfl⟩
      · obtain ⟨a, ha, rfl⟩ := ih h
        exact ⟨a, List.mem_cons_of_mem _ ha, rfl⟩
    · exact ⟨address, List.mem_cons_self, List.mem_singleton.1 h⟩
    · exact ⟨address, List.mem_cons_self, List.mem_singleton.1 h⟩

/-- A hop with the requests that its own resolution led to. -/
theorem guarded_hop {w : World} {trust : Trust} {number : Nat} {value url : String} {parsed : ParsedUrl} {addresses : List IpAddress} (proxy : Option ParsedUrl)
    (bearer : Option String) (h : resolveRemoteUrl w number value trust = .ok (url, parsed, addresses)) :
    Guarded w trust number ⟨url, addresses, (tryAddresses w number (requestFor url parsed proxy bearer) addresses).1⟩ := by
  obtain ⟨-, hparsed, port, found, hfound, hallowed, hmem⟩ := resolveRemoteUrl_ok h
  refine ⟨parsed, port, found, hparsed, hfound, hallowed, fun request hrequest => ?_⟩
  obtain ⟨a, ha, rfl⟩ := mem_tryAddresses hrequest
  obtain ⟨hurl, -, hgoes⟩ := requestFor_spec url parsed proxy bearer a
  exact ⟨hurl, a, (hmem a).1 ha, hgoes⟩

/-! ## The hops of a run -/

/-- A run from a hop on: so many hops at most, each guarded under its own number, and no token in a request. -/
structure Safe (w : World) (trust : Trust) (first left : Nat) (run : Fetched) : Prop where
  length_le : run.hops.length ≤ left
  guarded : ∀ i hop, run.hops[i]? = some hop → Guarded w trust (first + i) hop
  plain : ∀ hop ∈ run.hops, ∀ request ∈ hop.requests, request.bearer = none

theorem safe_stop {w : World} {trust : Trust} {first left : Nat} (result : Except Failure String) : Safe w trust first left ⟨[], result⟩ :=
  ⟨Nat.zero_le left, nofun, nofun⟩

/-- One more hop in front of a run. -/
theorem Safe.after {w : World} {trust : Trust} {first left : Nat} {hop : Hop} {run : Fetched} (hrun : Safe w trust (first + 1) left run) (hhop : Guarded w trust first hop)
    (hplain : ∀ request ∈ hop.requests, request.bearer = none) : Safe w trust first (left + 1) (.after hop run) where
  length_le := Nat.succ_le_succ hrun.length_le
  guarded := by
    intro i other h
    cases i with
    | zero =>
      cases h
      exact hhop
    | succ i =>
      have := hrun.guarded i other h
      rwa [Nat.add_right_comm] at this
  plain := by
    intro other h
    rcases List.mem_cons.1 h with rfl | h
    · exact hplain
    · exact hrun.plain other h

theorem safe_fetchFrom (w : World) (trust : Trust) (current : String) (redirectCount left : Nat) : Safe w trust redirectCount left (fetchFrom w trust current redirectCount left) := by
  induction left generalizing current redirectCount with
  | zero => exact safe_stop _
  | succ left ih =>
    unfold fetchFrom
    split
    · exact safe_stop _
    · rename_i url parsed addresses hresolved
      split
      · exact safe_stop _
      · rename_i proxy hproxy
        have hhop := guarded_hop proxy none hresolved
        have hplain : ∀ request ∈ (tryAddresses w redirectCount (requestFor url parsed proxy none) addresses).1, request.bearer = none := by
          intro request hrequest
          obtain ⟨a, -, rfl⟩ := mem_tryAddresses hrequest
          exact (requestFor_spec url parsed proxy none a).2.1
        have hends : ∀ result, Safe w trust redirectCount (left + 1) (.after ⟨url, addresses, (tryAddresses w redirectCount (requestFor url parsed proxy none) addresses).1⟩ ⟨[], result⟩) :=
          fun result => Safe.after (safe_stop result) hhop hplain
        -- the turn ends the run, or goes on to the redirect target
        simp only
        split
        · exact hends _
        · exact hends _
        · split
          · split
            · exact hends _
            · split
              · exact hends _
              · split
                · exact hends _
                · exact (ih _ _).after hhop hplain
          · split
            · exact hends _
            · exact hends _

/-! ## The hop of an authorized fetch -/

theorem not_relayed_of_https {url : String} {parsed : ParsedUrl} {proxy : Option ParsedUrl} {bearer : Option String} {a : IpAddress} (h : parsed.scheme = "https") :
    ∀ proxyHost proxyPort host port, (requestFor url parsed proxy bearer a).connection ≠ .relayed proxyHost proxyPort host port := by
  cases proxy with
  | none => exact nofun
  | some proxy =>
    simp only [requestFor, pinnedProxyGet, if_pos h]
    exact nofun

theorem sentOnlyTo_hop {w : World} {url safeUrl : String} {parsed : ParsedUrl} {addresses : List IpAddress} (bearer : String) (proxy : Option ParsedUrl)
    (h : resolveRemoteUrl w 0 url .official = .ok (safeUrl, parsed, addresses)) (hscheme : parsed.scheme = "https") :
    SentOnlyTo url bearer ⟨safeUrl, addresses, (tryAddresses w 0 (requestFor safeUrl parsed proxy (some bearer)) addresses).1⟩ := by
  intro request hrequest
  obtain ⟨a, -, rfl⟩ := mem_tryAddresses hrequest
  obtain ⟨hurl, hbearer, -⟩ := requestFor_spec safeUrl parsed proxy (some bearer) a
  exact ⟨hbearer, hurl.trans (resolveRemoteUrl_ok h).1, not_relayed_of_https hscheme⟩

/-- A run of one hop. -/
theorem authorized_of_hop {w : World} {url bearer : String} {hop : Hop} {run : Fetched} (hrun : run.hops = [hop]) (hhop : Guarded w .official 0 hop) (hsent : SentOnlyTo url bearer hop) :
    run.hops.length ≤ 1 ∧ ∀ number hop, run.hops[number]? = some hop → Guarded w .official number hop ∧ SentOnlyTo url bearer hop := by
  rw [hrun]
  refine ⟨Nat.le_refl 1, fun number other h => ?_⟩
  cases number with
  | zero =>
    cases h
    exact ⟨hhop, hsent⟩
  | succ number => cases h

theorem authorized (w : World) (url bearer : String) :
    (fetchAuthorized w url bearer).hops.length ≤ 1 ∧
      ∀ number hop, (fetchAuthorized w url bearer).hops[number]? = some hop → Guarded w .official number hop ∧ SentOnlyTo url bearer hop := by
  unfold fetchAuthorized
  split
  · exact ⟨Nat.zero_le 1, nofun⟩
  · rename_i safeUrl parsed addresses hresolved
    split
    · exact ⟨Nat.zero_le 1, nofun⟩
    · rename_i hscheme
      split
      · exact ⟨Nat.zero_le 1, nofun⟩
      · rename_i proxy hproxy
        have hguarded := guarded_hop proxy (some bearer) hresolved
        have hsent := sentOnlyTo_hop bearer proxy hresolved (Decidable.not_not.1 hscheme)
        simp only
        split
        · exact authorized_of_hop rfl hguarded hsent
        · exact authorized_of_hop rfl hguarded hsent
        · split
          · exact authorized_of_hop rfl hguarded hsent
          · split <;> exact authorized_of_hop rfl hguarded hsent

end GuardAux

open GuardAux

/-- Whatever is answered: a fetch has at most six hops, each of them guarded and without a token; an authorized fetch has at most one, guarded too, and its token is sent for its one URL. -/
theorem fetches_are_guarded (w : World) (url : String) (trust : Trust) (bearer : String) :
    ((fetch w url trust).hops.length ≤ 6 ∧ ∀ number hop, (fetch w url trust).hops[number]? = some hop →
        Guarded w trust number hop ∧ ∀ request ∈ hop.requests, request.bearer = none) ∧
      (fetchAuthorized w url bearer).hops.length ≤ 1 ∧
        ∀ number hop, (fetchAuthorized w url bearer).hops[number]? = some hop → Guarded w .official number hop ∧ SentOnlyTo url bearer hop := by
  have hfetch := safe_fetchFrom w trust url 0 6
  refine ⟨⟨hfetch.length_le, fun number hop h => ⟨?_, hfetch.plain hop (List.mem_of_getElem? h)⟩⟩, authorized w url bearer⟩
  have := hfetch.guarded number hop h
  rwa [Nat.zero_add] at this

end RemoteFetch

end TecTac
