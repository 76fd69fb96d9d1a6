import Mathlib.Data.List.Forall2
import Mathlib.Tactic.Cases

/-!
# The client's address

Which address a request counts against: the socket's peer, or an address of
`X-Forwarded-For` as far as the hops before it are trusted proxies. A Go string
is its bytes, and the parsers of `net` are parameters.
-/

namespace SlowMeet.RateLimit

abbrev Bytes := List UInt8

/-! ## Strings -/

/-- What `unicode.IsSpace` holds of, in UTF-8. -/
def spaces : List Bytes :=
  [[0x09], [0x0A], [0x0B], [0x0C], [0x0D], [0x20], [0xC2, 0x85], [0xC2, 0xA0], [0xE1, 0x9A, 0x80],
    [0xE2, 0x80, 0x80], [0xE2, 0x80, 0x81], [0xE2, 0x80, 0x82], [0xE2, 0x80, 0x83],
    [0xE2, 0x80, 0x84], [0xE2, 0x80, 0x85], [0xE2, 0x80, 0x86], [0xE2, 0x80, 0x87],
    [0xE2, 0x80, 0x88], [0xE2, 0x80, 0x89], [0xE2, 0x80, 0x8A], [0xE2, 0x80, 0xA8],
    [0xE2, 0x80, 0xA9], [0xE2, 0x80, 0xAF], [0xE2, 0x81, 0x9F], [0xE3, 0x80, 0x80]]

/-- Take the words off the front for as long as one is there: no more of them
than the string has bytes. -/
def trimWords (words : List Bytes) : Nat → Bytes → Bytes
  | 0, s => s
  | fuel + 1, s =>
    match words.find? (·.isPrefixOf s) with
    | none => s
    | some word => trimWords words fuel (s.drop word.length)

def trimSpace (s : Bytes) : Bytes :=
  let left := trimWords spaces s.length s
  (trimWords (spaces.map List.reverse) left.length left.reverse).reverse

/-- `net.SplitHostPort`, without its error texts. -/
def splitHostPort (hostport : Bytes) : Option (Bytes × Bytes) :=
  match hostport.reverse.idxOf? ':'.toUInt8 with
  | none => none
  | some fromEnd =>
    let i := hostport.length - 1 - fromEnd
    let port := hostport.drop (i + 1)
    if hostport.head? = some '['.toUInt8 then
      match hostport.idxOf? ']'.toUInt8 with
      | none => none
      | some stop =>
        if stop + 1 ≠ i then none
        else if '['.toUInt8 ∈ hostport.drop 1 ∨ ']'.toUInt8 ∈ hostport.drop (stop + 1) then none
        else some ((hostport.take stop).drop 1, port)
    else
      let host := hostport.take i
      if ':'.toUInt8 ∈ host then none
      else if '['.toUInt8 ∈ hostport ∨ ']'.toUInt8 ∈ hostport then none
      else some (host, port)

/-! ## Addresses -/

/-- The parsers and networks of `net`. -/
structure Net (IP Network : Type) where
  parseIP : Bytes → Option IP
  parseCIDR : Bytes → Option Network
  contains : Network → IP → Bool
  string : IP → Bytes

structure Request where
  remoteAddr : Bytes
  /-- The values of `X-Forwarded-For`. -/
  forwardedFor : List Bytes

/-- `trustedProxyCache`. -/
structure ProxyCache (Network : Type) where
  raw : List Bytes
  parsed : List Network

def ProxyCache.empty {Network : Type} : ProxyCache Network := ⟨[], []⟩

/-- From the peer along the hops, nearest first, for as long as the hop reached
is trusted. -/
def walk {α : Type} (trusted : α → Bool) (client : α) : List α → α
  | [] => client
  | hop :: hops => if trusted client then walk trusted hop hops else client

namespace Net

variable {IP Network : Type} (net : Net IP Network)

def isTrusted (ip : IP) (trusted : List Network) : Bool :=
  trusted.any fun network => net.contains network ip

/-- The networks of the strings that parse. -/
def networks (cidrs : List Bytes) : List Network :=
  cidrs.filterMap fun cidr => net.parseCIDR (trimSpace cidr)

def parseTrustedProxyCIDRs (cache : ProxyCache Network) (cidrs : List Bytes) :
    List Network × ProxyCache Network :=
  if cache.raw = cidrs then (cache.parsed, cache)
  else (net.networks cidrs, ⟨cidrs, net.networks cidrs⟩)

def socketPeerIP (remoteAddr : Bytes) : Option IP :=
  let host := trimSpace remoteAddr
  match splitHostPort host with
  | some (parsedHost, _) => net.parseIP parsedHost
  | none => net.parseIP host

def socketPeerKey (remoteAddr : Bytes) : Bytes :=
  match net.socketPeerIP remoteAddr with
  | some ip => net.string ip
  | none =>
    if trimSpace remoteAddr ≠ [] then trimSpace remoteAddr
    else "unknown".toList.map Char.toUInt8

/-- The addresses of the parts, unless one does not parse. -/
def parseChain : List Bytes → Option (List IP)
  | [] => some []
  | part :: parts =>
    match net.parseIP (trimSpace part) with
    | none => none
    | some ip => (parseChain parts).map (ip :: ·)

/-- The client's address, once the peer and the trusted networks are known. -/
def resolve (peer : IP) (trusted : List Network) (forwardedFor : List Bytes) : IP :=
  if net.isTrusted peer trusted = false then peer
  else
    let forwarded := [','.toUInt8].intercalate forwardedFor
    if forwarded.length = 0 ∨ 8192 < forwarded.length then peer
    else
      match net.parseChain (forwarded.splitOn ','.toUInt8) with
      | none => peer
      | some chain => walk (net.isTrusted · trusted) peer chain.reverse

def clientIPWithTrustedProxyCIDRs (cache : ProxyCache Network) (r : Request)
    (trustedProxyCIDRs : List Bytes) : Bytes × ProxyCache Network :=
  match net.socketPeerIP r.remoteAddr with
  | none => (net.socketPeerKey r.remoteAddr, cache)
  | some peer =>
    let (trusted, cache) := net.parseTrustedProxyCIDRs cache trustedProxyCIDRs
    (net.string (net.resolve peer trusted r.forwardedFor), cache)

def clientIP (cache : ProxyCache Network) (r : Request) : Bytes × ProxyCache Network :=
  net.clientIPWithTrustedProxyCIDRs cache r []

end Net

/-! ## The walk -/

/-- The rightmost of the addresses that is not trusted. -/
def RightmostUntrusted {α : Type} (trusted : α → Bool) (addresses : List α) (ip : α) : Prop :=
  ∃ before after, addresses = before ++ ip :: after ∧ trusted ip = false ∧
    ∀ hop ∈ after, trusted hop = true

section Walk

variable {α : Type} {trusted : α → Bool} {peer ip : α} {chain hops after before : List α}

/-- What is trusted is walked through. -/
theorem walk_append (hpeer : trusted peer = true) (h : ∀ hop ∈ hops, trusted hop = true) :
    walk trusted peer (hops ++ ip :: before) = walk trusted ip before := by
  induction hops generalizing peer with
  | nil =>
    show walk trusted peer (ip :: before) = _
    rw [walk, if_pos hpeer]
  | cons hop hops ih =>
    show walk trusted peer (hop :: (hops ++ ip :: before)) = _
    rw [walk, if_pos hpeer]
    exact ih (h hop List.mem_cons_self) fun x hx => h x (List.mem_cons_of_mem _ hx)

theorem walk_untrusted (h : trusted peer = false) : walk trusted peer hops = peer := by
  cases hops with
  | nil => rfl
  | cons hop hops => rw [walk, if_neg (by simp [h])]

/-- The walk stops at the rightmost address that is not trusted, wherever the
chain came from. -/
theorem RightmostUntrusted.walk (h : RightmostUntrusted trusted (chain ++ [peer]) ip) :
    walk trusted peer chain.reverse = ip := by
  obtain ⟨before, after, heq, hip, hafter⟩ := h
  -- Nearest first, the peer leads.
  have hrev : peer :: chain.reverse = after.reverse ++ ip :: before.reverse := by
    have hsides := congrArg List.reverse heq
    simpa using hsides
  cases hcase : after.reverse with
  | nil =>
    rw [hcase] at hrev
    obtain ⟨rfl, -⟩ := List.cons_eq_cons.mp hrev
    exact walk_untrusted hip
  | cons hop hops =>
    rw [hcase] at hrev
    rw [List.cons_append] at hrev
    obtain ⟨rfl, htail⟩ := List.cons_eq_cons.mp hrev
    have htrusted : ∀ x ∈ peer :: hops, trusted x = true := by
      intro x hx
      rw [← hcase] at hx
      exact hafter x (List.mem_reverse.mp hx)
    rw [htail, walk_append (htrusted peer List.mem_cons_self)
      fun x hx => htrusted x (List.mem_cons_of_mem _ hx)]
    exact walk_untrusted hip

/-- With every hop trusted the walk reaches the end. -/
theorem walk_trusted (hpeer : trusted peer = true) (h : ∀ hop ∈ chain, trusted hop = true) :
    walk trusted peer (ip :: chain).reverse = ip := by
  rw [List.reverse_cons]
  rw [walk_append hpeer fun hop hhop => h hop (List.mem_reverse.mp hhop)]
  rfl

end Walk

/-! ## The memo -/

/-- The memo holds what its strings parse to. -/
def ProxyCache.Coherent {IP Network : Type} (net : Net IP Network) (cache : ProxyCache Network) :
    Prop :=
  cache.parsed = net.networks cache.raw

namespace Net

variable {IP Network : Type} {net : Net IP Network} {cache : ProxyCache Network}
  {cidrs : List Bytes} {r : Request} {peer : IP}

/-- The cache after a run of calls. -/
def cacheAfter (net : Net IP Network) (calls : List (Request × List Bytes)) : ProxyCache Network :=
  calls.foldl (fun cache call => (net.clientIPWithTrustedProxyCIDRs cache call.1 call.2).2) .empty

/-- A call's result after the calls before it. -/
def answer (net : Net IP Network) (calls : List (Request × List Bytes)) (r : Request)
    (cidrs : List Bytes) : Bytes :=
  (net.clientIPWithTrustedProxyCIDRs (net.cacheAfter calls) r cidrs).1

/-- The result where every call parses its own strings. -/
def answerWithoutMemo (net : Net IP Network) (r : Request) (cidrs : List Bytes) : Bytes :=
  match net.socketPeerIP r.remoteAddr with
  | none => net.socketPeerKey r.remoteAddr
  | some peer => net.string (net.resolve peer (net.networks cidrs) r.forwardedFor)

theorem coherent_empty : (ProxyCache.empty : ProxyCache Network).Coherent net := rfl

theorem coherent_parseTrustedProxyCIDRs (h : cache.Coherent net) :
    (net.parseTrustedProxyCIDRs cache cidrs).2.Coherent net := by
  unfold parseTrustedProxyCIDRs
  by_cases hraw : cache.raw = cidrs
  · rw [if_pos hraw]
    exact h
  · rw [if_neg hraw]
    rfl

theorem parseTrustedProxyCIDRs_fst (h : cache.Coherent net) :
    (net.parseTrustedProxyCIDRs cache cidrs).1 = net.networks cidrs := by
  unfold parseTrustedProxyCIDRs
  by_cases hraw : cache.raw = cidrs
  · rw [if_pos hraw, ← hraw]
    exact h
  · rw [if_neg hraw]

/-- One call keeps the memo coherent. -/
theorem coherent_clientIP (h : cache.Coherent net) :
    (net.clientIPWithTrustedProxyCIDRs cache r cidrs).2.Coherent net := by
  unfold clientIPWithTrustedProxyCIDRs
  cases net.socketPeerIP r.remoteAddr with
  | none => exact h
  | some peer => exact coherent_parseTrustedProxyCIDRs h

theorem coherent_cacheAfter (net : Net IP Network) (calls : List (Request × List Bytes)) :
    (net.cacheAfter calls).Coherent net := by
  unfold cacheAfter
  generalize hcache : (ProxyCache.empty : ProxyCache Network) = cache
  have h : cache.Coherent net := hcache ▸ coherent_empty
  clear hcache
  induction calls generalizing cache with
  | nil => exact h
  | cons call calls ih => exact ih _ (coherent_clientIP h)

/-- The memo makes no difference. -/
theorem answer_eq (net : Net IP Network) (calls : List (Request × List Bytes)) (r : Request)
    (cidrs : List Bytes) : net.answer calls r cidrs = net.answerWithoutMemo r cidrs := by
  unfold answer answerWithoutMemo clientIPWithTrustedProxyCIDRs
  cases net.socketPeerIP r.remoteAddr with
  | none => rfl
  | some peer =>
    show net.string (net.resolve peer (net.parseTrustedProxyCIDRs _ cidrs).1 _) = _
    rw [parseTrustedProxyCIDRs_fst (coherent_cacheAfter net calls)]

/-! ## The chain -/

/-- The elements of the header as it was joined. -/
def Elements (r : Request) : List Bytes :=
  ([','.toUInt8].intercalate r.forwardedFor).splitOn ','.toUInt8

/-- The header is within its limit, and its elements parse to the chain. -/
def Forwards (net : Net IP Network) (r : Request) (chain : List IP) : Prop :=
  ([','.toUInt8].intercalate r.forwardedFor).length ≤ 8192 ∧
    (Elements r).Forall₂ (fun part ip => net.parseIP (trimSpace part) = some ip) chain

variable {chain : List IP} {parts : List Bytes}

theorem parseChain_eq_some :
    net.parseChain parts = some chain ↔
      parts.Forall₂ (fun part ip => net.parseIP (trimSpace part) = some ip) chain := by
  induction parts generalizing chain with
  | nil => rw [parseChain, Option.some_inj, List.forall₂_nil_left_iff, eq_comm]
  | cons part parts ih =>
    unfold parseChain
    cases chain with
    | nil => cases net.parseIP (trimSpace part) <;> simp
    | cons ip chain =>
      rw [List.forall₂_cons, ← ih]
      cases net.parseIP (trimSpace part) <;> simp [and_comm]

theorem parseChain_eq_none :
    net.parseChain parts = none ↔ ∃ part ∈ parts, net.parseIP (trimSpace part) = none := by
  induction parts with
  | nil => simp [parseChain]
  | cons part parts ih =>
    unfold parseChain
    cases hpart : net.parseIP (trimSpace part) with
    | none => simp [hpart]
    | some ip => simp [hpart, ih]

/-- What an acceptable header resolves to, behind a trusted peer. -/
theorem resolve_of_forwards {trusted : List Network} (hempty : net.parseIP [] = none)
    (h : net.Forwards r chain) (hpeer : net.isTrusted peer trusted = true) :
    net.resolve peer trusted r.forwardedFor =
      walk (net.isTrusted · trusted) peer chain.reverse := by
  obtain ⟨hlength, hparts⟩ := h
  have hparse : net.parseChain (Elements r) = some chain := parseChain_eq_some.mpr hparts
  have hsome : ([','.toUInt8].intercalate r.forwardedFor).length ≠ 0 := by
    intro hzero
    rw [Elements, List.length_eq_zero_iff.mp hzero, List.splitOn_nil, parseChain_eq_some] at hparse
    cases hparse with
    | cons hpart _ =>
      -- The one element of an empty header is the empty string.
      have hnil : net.parseIP [] = some _ := hpart
      rw [hempty] at hnil
      cases hnil
  unfold resolve
  rw [if_neg (by simp [hpeer])]
  dsimp only
  rw [if_neg (by omega)]
  show (match net.parseChain (Elements r) with | none => _ | some chain => _) = _
  rw [hparse]

/-- A header too long, or with an element that does not parse, is ignored. -/
theorem resolve_of_malformed {trusted : List Network}
    (h : 8192 < ([','.toUInt8].intercalate r.forwardedFor).length ∨
      ∃ part ∈ Elements r, net.parseIP (trimSpace part) = none) :
    net.resolve peer trusted r.forwardedFor = peer := by
  unfold resolve
  by_cases hpeer : net.isTrusted peer trusted = false
  · rw [if_pos hpeer]
  · rw [if_neg hpeer]
    dsimp only
    by_cases hlength : ([','.toUInt8].intercalate r.forwardedFor).length = 0 ∨
        8192 < ([','.toUInt8].intercalate r.forwardedFor).length
    · rw [if_pos hlength]
    · rw [if_neg hlength]
      have hnone : net.parseChain (Elements r) = none := by
        rw [parseChain_eq_none]
        exact h.resolve_left fun hlong => hlength (.inr hlong)
      show (match net.parseChain (Elements r) with | none => _ | some chain => _) = _
      rw [hnone]

theorem resolve_of_untrusted {trusted : List Network} (h : net.isTrusted peer trusted = false) :
    net.resolve peer trusted r.forwardedFor = peer := by
  unfold resolve
  rw [if_pos h]

/-- The rightmost address that is not trusted, whether it is the peer or a hop. -/
theorem resolve_of_rightmostUntrusted {trusted : List Network} {ip : IP}
    (hempty : net.parseIP [] = none) (h : net.Forwards r chain)
    (hip : RightmostUntrusted (net.isTrusted · trusted) (chain ++ [peer]) ip) :
    net.resolve peer trusted r.forwardedFor = ip := by
  have hwalk := hip.walk
  by_cases hpeer : net.isTrusted peer trusted = true
  · rw [resolve_of_forwards hempty h hpeer, hwalk]
  · have huntrusted : net.isTrusted peer trusted = false := by simpa using hpeer
    have hstay : walk (net.isTrusted · trusted) peer chain.reverse = peer :=
      walk_untrusted huntrusted
    rw [resolve_of_untrusted huntrusted, ← hstay, hwalk]

/-! ## Every request, after any calls -/

theorem answer_of_peer (calls : List (Request × List Bytes))
    (h : net.socketPeerIP r.remoteAddr = some peer) :
    net.answer calls r cidrs =
      net.string (net.resolve peer (net.networks cidrs) r.forwardedFor) := by
  rw [answer_eq, answerWithoutMemo, h]

/-- Without trusted networks nobody is believed. -/
theorem clientIP_eq_peer (calls : List (Request × List Bytes))
    (h : net.socketPeerIP r.remoteAddr = some peer) :
    (net.clientIP (net.cacheAfter calls) r).1 = net.string peer := by
  show net.answer calls r [] = _
  rw [answer_of_peer calls h, resolve_of_untrusted (by rfl)]

/-- Whose address a request's result is. -/
structure Resolved (net : Net IP Network) (r : Request) (cidrs : List Bytes) (peer : IP)
    (result : Bytes) : Prop where
  /-- An untrusted peer is the client, whatever the header says. -/
  untrusted : net.isTrusted peer (net.networks cidrs) = false → result = net.string peer
  rightmost : ∀ chain ip, net.Forwards r chain →
    RightmostUntrusted (net.isTrusted · (net.networks cidrs)) (chain ++ [peer]) ip →
    result = net.string ip
  leftmost : ∀ client chain, net.Forwards r (client :: chain) →
    (∀ hop ∈ client :: chain ++ [peer], net.isTrusted hop (net.networks cidrs) = true) →
    result = net.string client
  malformed : (∀ chain, ¬ net.Forwards r chain) → result = net.string peer

theorem resolved (hempty : net.parseIP [] = none) (calls : List (Request × List Bytes))
    (h : net.socketPeerIP r.remoteAddr = some peer) :
    net.Resolved r cidrs peer (net.answer calls r cidrs) := by
  rw [answer_of_peer calls h]
  constructor
  case untrusted =>
    intro huntrusted
    rw [resolve_of_untrusted huntrusted]
  case rightmost =>
    intro chain ip hforwards hip
    rw [resolve_of_rightmostUntrusted hempty hforwards hip]
  case leftmost =>
    intro client chain hforwards htrusted
    have hpeer := htrusted peer (by simp)
    have hwalk : walk (net.isTrusted · (net.networks cidrs)) peer (client :: chain).reverse =
        client :=
      walk_trusted hpeer fun hop hhop => htrusted hop (by simp [hhop])
    rw [resolve_of_forwards hempty hforwards hpeer, hwalk]
  case malformed =>
    intro hnone
    rw [resolve_of_malformed]
    by_cases hlength : 8192 < ([','.toUInt8].intercalate r.forwardedFor).length
    · exact .inl hlength
    · apply Or.inr
      rw [← parseChain_eq_none]
      cases hchain : net.parseChain (Elements r) with
      | none => rfl
      | some chain => exact absurd ⟨by omega, parseChain_eq_some.mp hchain⟩ (hnone chain)

/-- No header moves the result past the rightmost address that is not trusted:
two requests that agree from there on have one result, whatever stands before
it and whatever calls came before. And the memo never makes a difference. -/
theorem resolved_of_calls (net : Net IP Network) (hempty : net.parseIP [] = none) :
    (∀ calls r cidrs, net.answer calls r cidrs = net.answerWithoutMemo r cidrs) ∧
    (∀ calls r cidrs, net.socketPeerIP r.remoteAddr = none →
      net.answer calls r cidrs = net.socketPeerKey r.remoteAddr) ∧
    (∀ calls r cidrs peer, net.socketPeerIP r.remoteAddr = some peer →
      net.Resolved r cidrs peer (net.answer calls r cidrs)) ∧
    ∀ calls₁ calls₂ r₁ r₂ cidrs peer₁ peer₂ chain₁ chain₂ before₁ before₂ ip after,
      net.socketPeerIP r₁.remoteAddr = some peer₁ → net.socketPeerIP r₂.remoteAddr = some peer₂ →
      net.Forwards r₁ chain₁ → net.Forwards r₂ chain₂ →
      chain₁ ++ [peer₁] = before₁ ++ ip :: after → chain₂ ++ [peer₂] = before₂ ++ ip :: after →
      net.isTrusted ip (net.networks cidrs) = false →
      (∀ hop ∈ after, net.isTrusted hop (net.networks cidrs) = true) →
      net.answer calls₁ r₁ cidrs = net.answer calls₂ r₂ cidrs := by
  refine ⟨answer_eq net, ?_, fun calls r cidrs peer => resolved hempty calls, ?_⟩
  · intro calls r cidrs hpeer
    rw [answer_eq, answerWithoutMemo, hpeer]
  · intro calls₁ calls₂ r₁ r₂ cidrs peer₁ peer₂ chain₁ chain₂ before₁ before₂ ip after
      hpeer₁ hpeer₂ hforwards₁ hforwards₂ heq₁ heq₂ hip hafter
    rw [(resolved hempty calls₁ hpeer₁).rightmost chain₁ ip hforwards₁
        ⟨before₁, after, heq₁, hip, hafter⟩,
      (resolved hempty calls₂ hpeer₂).rightmost chain₂ ip hforwards₂
        ⟨before₂, after, heq₂, hip, hafter⟩]

/-- Dotted quads of the samples, and the network `10.0.0.0/8`. -/
def sample : Net (List UInt8) UInt8 where
  parseIP s := addresses.lookup s
  parseCIDR s := if s = bytes "10.0.0.0/8" then some 10 else none
  contains network ip := ip.head? == some network
  string ip := ((addresses.find? fun entry => entry.2 == ip).map Prod.fst).getD []
where
  bytes (s : String) : Bytes := s.toList.map Char.toUInt8
  addresses : List (Bytes × List UInt8) :=
    [(bytes "10.0.0.1", [10, 0, 0, 1]), (bytes "10.0.0.9", [10, 0, 0, 9]),
      (bytes "2.2.2.2", [2, 2, 2, 2]), (bytes "6.6.6.6", [6, 6, 6, 6])]

/-- A request through the proxies 10.0.0.9 and 10.0.0.1 whose client claims to
forward for 6.6.6.6. -/
def spoofing : Request :=
  ⟨sample.bytes "10.0.0.1:443", [sample.bytes "6.6.6.6, 2.2.2.2", sample.bytes "10.0.0.9"]⟩

/-- The client that claims nothing. -/
def plain : Request := ⟨sample.bytes "10.0.0.1:443", [sample.bytes "2.2.2.2, 10.0.0.9"]⟩

theorem resolved_of_calls_spoofing :
    sample.answer [(plain, [])] spoofing [sample.bytes "10.0.0.0/8"] =
        sample.answer [] plain [sample.bytes "10.0.0.0/8"] ∧
      sample.answer [] plain [sample.bytes "10.0.0.0/8"] = sample.bytes "2.2.2.2" := by
  obtain ⟨-, -, hone, htwo⟩ := resolved_of_calls sample rfl
  have hspoofing : sample.Forwards spoofing [[6, 6, 6, 6], [2, 2, 2, 2], [10, 0, 0, 9]] :=
    ⟨by decide +kernel, parseChain_eq_some.mp (by decide +kernel)⟩
  have hplain : sample.Forwards plain [[2, 2, 2, 2], [10, 0, 0, 9]] :=
    ⟨by decide +kernel, parseChain_eq_some.mp (by decide +kernel)⟩
  have hpeer : sample.socketPeerIP plain.remoteAddr = some [10, 0, 0, 1] := by decide +kernel
  have hip : sample.isTrusted [2, 2, 2, 2] (sample.networks [sample.bytes "10.0.0.0/8"]) = false := by
    decide +kernel
  have hafter : ∀ hop ∈ [[10, 0, 0, 9], [10, 0, 0, 1]],
      sample.isTrusted hop (sample.networks [sample.bytes "10.0.0.0/8"]) = true := by
    decide +kernel
  constructor
  · exact htwo [(plain, [])] [] spoofing plain [sample.bytes "10.0.0.0/8"] _ _ _ _ [[6, 6, 6, 6]] []
      [2, 2, 2, 2] [[10, 0, 0, 9], [10, 0, 0, 1]] hpeer hpeer hspoofing hplain rfl rfl hip hafter
  · have hrightmost := (hone [] plain [sample.bytes "10.0.0.0/8"] _ hpeer).rightmost _ [2, 2, 2, 2]
      hplain ⟨[], [[10, 0, 0, 9], [10, 0, 0, 1]], rfl, hip, hafter⟩
    rw [hrightmost]
    decide +kernel

end Net

end SlowMeet.RateLimit
