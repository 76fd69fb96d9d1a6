import Mathlib.Data.List.Forall2
import SlowMeet.Settings.Config

/-!
# Connection methods

Which method a TURN URL serves: `turnConnectionMethod` of the server, from
which it tells a page what is available, and `filterICEServers` of the page.
-/

namespace SlowMeet.Settings

/-! ## Letter case -/

/-- What a character's lower case may be: a letter's own for ASCII, and for the
rest nothing of ASCII but the `i` and the `k` of `İ` and of the Kelvin sign. -/
def LowersChar (c : Char) (piece : List Char) : Prop :=
  if c.toNat < 128 then piece = [c.toLower]
  else piece ≠ [] ∧ ∀ d ∈ piece, d.toNat < 128 → d = 'i' ∨ d = 'k'

/-- A text and its lower case, character by character. -/
inductive Lowers : List Char → List Char → Prop
  | nil : Lowers [] []
  | cons {c : Char} {piece s t : List Char} :
      LowersChar c piece → Lowers s t → Lowers (c :: s) (piece ++ t)

/-- The lower case of ASCII letters, and of the two others that fold to one. -/
def foldASCII (c : Char) : Char :=
  if c = 'ſ' then 's' else if c = '\u212A' then 'k' else c.toLower

/-- Unicode's tables of letter case, and what they hold about ASCII. -/
structure CaseTables where
  /-- `unicode.ToLower`. -/
  toLower : Char → Char
  /-- Two characters of one orbit of `unicode.SimpleFold`. -/
  sameFold : Char → Char → Bool
  /-- `toLowerCase` of the page's strings. -/
  toLowerCase : List Char → List Char
  toLower_lowers : ∀ c, LowersChar c [toLower c]
  sameFold_iff : ∀ c d, d.toNat < 128 → (sameFold c d = true ↔ foldASCII c = foldASCII d)
  toLowerCase_lowers : ∀ s, Lowers s (toLowerCase s)

/-- `strings.EqualFold`. -/
def equalFold (tables : CaseTables) : List Char → List Char → Bool
  | [], [] => true
  | c :: s, d :: t => tables.sameFold c d && equalFold tables s t
  | _, _ => false

/-! ## The server -/

/-- `strings.SplitN` into two: what is before the first separator, and what is
after it if there is one. -/
def cut (sep : Char) : List Char → List Char × Option (List Char)
  | [] => ([], none)
  | c :: s => if c = sep then ([], some s) else (c :: (cut sep s).1, (cut sep s).2)

/-- The transport after one parameter. -/
def takeTransport (tables : CaseTables) (transport parameter : List Char) : List Char :=
  match cut '=' parameter with
  | (name, some value) =>
    if equalFold tables name "transport".toList then value.map tables.toLower else transport
  | (_, none) => transport

def turnConnectionMethod (tables : CaseTables) (raw : String) : String :=
  let parts := cut '?' raw.toList
  let address := parts.1.map tables.toLower
  if "turns:".toList.isPrefixOf address then "turn-tls"
  else if !"turn:".toList.isPrefixOf address then ""
  else
    let transport :=
      match parts.2 with
      | none => "udp".toList
      | some query => (query.splitOn '&').foldl (takeTransport tables) "udp".toList
    if transport = "udp".toList then "turn-udp"
    else if transport = "tcp".toList then "turn-tcp"
    else ""

/-- `browserICEServer`. -/
structure BrowserICEServer where
  urls : List String
  username : String
  credential : String
  deriving DecidableEq, Repr

/-- `browserConnectionMethod`. -/
structure BrowserConnectionMethod where
  id : String
  label : String
  enabled : Bool
  available : Bool
  adminEnabled : Bool
  reason : String
  deriving DecidableEq, Repr

/-- One of the URLs is for the method. -/
def offers (tables : CaseTables) (urls : List String) (id : String) : Bool :=
  id != "" && urls.any fun rawURL => turnConnectionMethod tables rawURL == id

/-- The last loop of `browserConnectionMethods`: what is enabled, and why not. -/
def settle (cfg : Config) (tables : CaseTables) (method : BrowserConnectionMethod) :
    BrowserConnectionMethod :=
  let enabled := method.enabled || (method.available && method.adminEnabled)
  if method.id = "auto" ∨ enabled = true then { method with enabled := enabled }
  else if !method.available then
    { method with
      enabled := enabled
      reason :=
        if method.id = "direct" ∧ cfg.iceTransportPolicy = "relay" then
          "Disabled by the server ICE policy"
        else if offers tables cfg.effectiveTURNURLs method.id then
          "TURN credentials are unavailable"
        else "Not configured on this server" }
  else if !method.adminEnabled then
    { method with enabled := enabled, reason := "Disabled by the administrator" }
  else { method with enabled := enabled }

def browserConnectionMethods (tables : CaseTables) (cfg : Config)
    (servers : List BrowserICEServer) : List BrowserConnectionMethod :=
  let enabled id := cfg.effectiveEnabledConnectionMethods.contains id
  let available id := servers.any fun server => offers tables server.urls id
  [{ id := "auto", label := "Automatic", enabled := true, available := true, adminEnabled := true,
      reason := "" },
    { id := "direct", label := "Direct", enabled := false,
      available := cfg.iceTransportPolicy != "relay", adminEnabled := enabled "direct",
      reason := "" },
    { id := "turn-udp", label := "TURN over UDP", enabled := false,
      available := available "turn-udp", adminEnabled := enabled "turn-udp", reason := "" },
    { id := "turn-tcp", label := "TURN over TCP", enabled := false,
      available := available "turn-tcp", adminEnabled := enabled "turn-tcp", reason := "" },
    { id := "turn-tls", label := "TURN over TLS", enabled := false,
      available := available "turn-tls", adminEnabled := enabled "turn-tls", reason := "" }].map
    (settle cfg tables)

/-! ## The page -/

/-- The transport the page reads from the query's parts. -/
def findTransport (parts : List (List Char)) : List Char :=
  match (parts.map (·.splitOn '=')).find? fun pair => pair.head? == some "transport".toList with
  | some (_ :: value :: _) => if value = [] then "udp".toList else value
  | _ => "udp".toList

def selectURL (tables : CaseTables) (methodID url : String) : Bool :=
  let value := tables.toLowerCase url.toList
  if methodID = "direct" then
    !"turn:".toList.isPrefixOf value && !"turns:".toList.isPrefixOf value
  else if methodID = "turn-tls" then "turns:".toList.isPrefixOf value
  else if !"turn:".toList.isPrefixOf value then false
  else
    let query := (value.splitOn '?')[1]?.getD []
    let transport := findTransport (query.splitOn '&')
    if methodID = "turn-udp" then transport == "udp".toList
    else methodID == "turn-tcp" && transport == "tcp".toList

def filterICEServers (tables : CaseTables) (iceServers : List BrowserICEServer)
    (methodID : String) : List BrowserICEServer :=
  if methodID = "auto" then iceServers
  else
    (iceServers.map fun server => { server with
      urls := server.urls.filter (selectURL tables methodID) }).filter (·.urls != [])

/-! ## Lower case and separators -/

theorem toLower_eq_self_or (c : Char) :
    c.toLower = c ∨ (c.toNat ≤ 90 ∧ 97 ≤ c.toLower.toNat) := by
  unfold Char.toLower
  split
  · rename_i h
    apply Or.inr
    have hlow : 65 ≤ c.val.toNat := h.1
    have hhigh : c.val.toNat ≤ 90 := h.2
    constructor
    · exact hhigh
    · show 97 ≤ (c.val + ('a'.val - 'A'.val)).toNat
      have hgap : ('a'.val - 'A'.val).toNat = 32 := by decide
      rw [UInt32.toNat_add]
      omega
  · exact .inl rfl

/-- A character that only itself is lowered to. -/
structure Separator (sep : Char) : Prop where
  before : sep.toNat < 97
  fixed : sep.toLower = sep

/-- A word that only its own letters are lowered to. -/
def Plain (word : List Char) : Prop :=
  ∀ c ∈ word, c.toNat < 128 ∧ c ≠ 'i' ∧ c ≠ 'k'

section Lowering

variable {c d sep : Char} {piece s t word : List Char}

theorem LowersChar.not_mem (h : LowersChar c piece) (hsep : Separator sep) (hne : c ≠ sep) :
    sep ∉ piece := by
  have hbefore := hsep.before
  unfold LowersChar at h
  by_cases hascii : c.toNat < 128
  · rw [if_pos hascii] at h
    rw [h, List.mem_singleton]
    intro heq
    cases toLower_eq_self_or c with
    | inl hself => exact hne (hself ▸ heq.symm)
    | inr hupper =>
      rw [← heq] at hupper
      omega
  · rw [if_neg hascii] at h
    intro hmem
    cases h.2 sep hmem (by omega) with
    | inl heq => exact absurd hbefore (by rw [heq]; decide)
    | inr heq => exact absurd hbefore (by rw [heq]; decide)

theorem LowersChar.eq_sep (h : LowersChar sep piece) (hsep : Separator sep) : piece = [sep] := by
  have hbefore := hsep.before
  unfold LowersChar at h
  rw [if_pos (by omega), hsep.fixed] at h
  exact h

theorem LowersChar.ne_nil (h : LowersChar c piece) : piece ≠ [] := by
  unfold LowersChar at h
  by_cases hascii : c.toNat < 128
  · rw [if_pos hascii] at h
    simp [h]
  · rw [if_neg hascii] at h
    exact h.1

/-- A plain letter comes from one character. -/
theorem LowersChar.append_eq_cons (h : LowersChar c piece)
    (hd : d.toNat < 128 ∧ d ≠ 'i' ∧ d ≠ 'k') :
    piece ++ t = d :: word ↔ c.toLower = d ∧ t = word := by
  unfold LowersChar at h
  by_cases hascii : c.toNat < 128
  · rw [if_pos hascii] at h
    rw [h, List.singleton_append, List.cons_eq_cons]
  · rw [if_neg hascii] at h
    obtain ⟨hsome, hall⟩ := h
    have hself : c.toLower = c := by
      cases toLower_eq_self_or c with
      | inl hself => exact hself
      | inr hupper => omega
    constructor
    · intro heq
      cases piece with
      | nil => exact absurd rfl hsome
      | cons e piece =>
        obtain ⟨rfl, -⟩ := List.cons_eq_cons.mp heq
        exact absurd (hall e List.mem_cons_self hd.1) (by simp [hd.2.1, hd.2.2])
    · rintro ⟨heq, -⟩
      rw [hself] at heq
      exact absurd hd.1 (heq ▸ hascii)

theorem Lowers.eq_nil (h : Lowers s t) : t = [] ↔ s = [] := by
  cases h with
  | nil => simp
  | cons hpiece _ => simp [hpiece.ne_nil]

/-- A text is a plain word in lower case just if its letters are. -/
theorem Lowers.eq_iff (h : Lowers s t) (hword : Plain word) :
    t = word ↔ s.map Char.toLower = word := by
  induction word generalizing s t with
  | nil => rw [h.eq_nil, List.map_eq_nil_iff]
  | cons d word ih =>
    cases h with
    | nil => simp
    | cons hpiece hs =>
      rw [hpiece.append_eq_cons (hword d List.mem_cons_self), List.map_cons, List.cons_eq_cons,
        ih hs fun c hc => hword c (List.mem_cons_of_mem _ hc)]

/-- It begins with one just if its letters do. -/
theorem Lowers.isPrefix (h : Lowers s t) (hword : Plain word) :
    word <+: t ↔ word <+: s.map Char.toLower := by
  induction word generalizing s t with
  | nil => simp
  | cons d word ih =>
    have hrest : Plain word := fun c hc => hword c (List.mem_cons_of_mem _ hc)
    cases h with
    | nil => simp
    | @cons c piece s t hpiece hs =>
      have hd := hword d List.mem_cons_self
      rw [List.map_cons, List.cons_prefix_cons, ← ih hs hrest]
      constructor
      · rintro ⟨rest, heq⟩
        obtain ⟨hc, ht⟩ := (hpiece.append_eq_cons hd).mp heq.symm
        exact ⟨hc.symm, rest, ht.symm⟩
      · rintro ⟨hc, rest, ht⟩
        exact ⟨rest, ((hpiece.append_eq_cons hd).mpr ⟨hc.symm, ht.symm⟩).symm⟩

/-- Lowering rune by rune. -/
theorem CaseTables.map_lowers (tables : CaseTables) (s : List Char) :
    Lowers s (s.map tables.toLower) := by
  induction s with
  | nil => exact .nil
  | cons c s ih => exact .cons (tables.toLower_lowers c) ih

end Lowering

/-! ## Splitting -/

section Splitting

variable {sep : Char} {piece s t : List Char}

theorem cut_append (h : sep ∉ piece) :
    cut sep (piece ++ t) = (piece ++ (cut sep t).1, (cut sep t).2) := by
  induction piece with
  | nil => rfl
  | cons d piece ih =>
    rw [List.mem_cons, not_or] at h
    rw [List.cons_append, cut, if_neg (Ne.symm h.1), ih h.2]
    rfl

theorem splitOn_cons (c : Char) (s : List Char) :
    (c :: s).splitOn sep =
      if c = sep then [] :: s.splitOn sep else (s.splitOn sep).modifyHead (c :: ·) := by
  unfold List.splitOn
  rw [List.splitOnP_cons_eq_if_modifyHead]
  simp

/-- The whole split, from the first cut. -/
theorem splitOn_eq_cut (sep : Char) (s : List Char) :
    s.splitOn sep = (cut sep s).1 :: (cut sep s).2.elim [] (·.splitOn sep) := by
  induction s with
  | nil => rfl
  | cons c s ih =>
    rw [splitOn_cons, cut]
    by_cases hc : c = sep
    · rw [if_pos hc, if_pos hc]
      rfl
    · rw [if_neg hc, if_neg hc, ih]
      rfl

theorem splitOn_append (h : sep ∉ piece) :
    (piece ++ t).splitOn sep = (t.splitOn sep).modifyHead (piece ++ ·) := by
  rw [splitOn_eq_cut, cut_append h, splitOn_eq_cut sep t]
  rfl

/-- Lowering goes through a cut. -/
theorem Lowers.cut (h : Lowers s t) (hsep : Separator sep) :
    Lowers (Settings.cut sep s).1 (Settings.cut sep t).1 ∧
      Option.Rel Lowers (Settings.cut sep s).2 (Settings.cut sep t).2 := by
  induction h with
  | nil => exact ⟨.nil, .none⟩
  | @cons c piece s t hpiece hs ih =>
    by_cases hc : c = sep
    · subst hc
      rw [hpiece.eq_sep hsep, List.singleton_append, Settings.cut, Settings.cut, if_pos rfl,
        if_pos rfl]
      exact ⟨.nil, .some hs⟩
    · rw [cut_append (hpiece.not_mem hsep hc), Settings.cut, if_neg hc]
      exact ⟨.cons hpiece ih.1, ih.2⟩

/-- And through a split. -/
theorem Lowers.splitOn (h : Lowers s t) (hsep : Separator sep) :
    List.Forall₂ Lowers (s.splitOn sep) (t.splitOn sep) := by
  induction h with
  | nil => exact .cons .nil .nil
  | @cons c piece s t hpiece hs ih =>
    by_cases hc : c = sep
    · subst hc
      rw [hpiece.eq_sep hsep, List.singleton_append, splitOn_cons, splitOn_cons, if_pos rfl,
        if_pos rfl]
      exact .cons .nil ih
    · rw [splitOn_append (hpiece.not_mem hsep hc), splitOn_cons, if_neg hc]
      rw [splitOn_eq_cut sep s, splitOn_eq_cut sep t] at ih ⊢
      cases ih with
      | cons hhead htail => exact .cons (.cons hpiece hhead) htail

end Splitting

/-! ## The transports of a URL -/

inductive Transport
  | udp
  | tcp
  | other
  deriving DecidableEq, Repr

/-- What a value in lower case names. -/
def Transport.exact (value : List Char) : Transport :=
  if value = "udp".toList then .udp
  else if value = "tcp".toList then .tcp
  else .other

/-- What a value names, in any letter case. -/
def Transport.named (value : List Char) : Transport := .exact (value.map Char.toLower)

/-- The value of a parameter called `transport`, everything after its first `=`.
The `s` of the name may be a long one. -/
def givenTransport (parameter : List Char) : Option (List Char) :=
  if (cut '=' parameter).1.map foldASCII = "transport".toList then (cut '=' parameter).2 else none

/-- The value of the query's last such parameter that has one. -/
def lastTransport (query : List Char) : Option (List Char) :=
  (query.splitOn '&').reverse.findSome? givenTransport

/-- What stands between the first separator and the second, or nothing. -/
def between (sep : Char) (s : List Char) : List Char :=
  ((cut sep s).2.map fun rest => (cut sep rest).1).getD []

/-- The value, up to a second `=`, of the first parameter called `transport`,
with or without an `=`. -/
def firstTransport (query : List Char) : Option (List Char) :=
  ((query.splitOn '&').find? fun parameter =>
    (cut '=' parameter).1.map Char.toLower = "transport".toList).map (between '=')

/-- The query is what follows the first `?`, and a transport that is not named
is UDP. -/
def serverTransport (url : String) : Transport :=
  ((lastTransport ((cut '?' url.toList).2.getD [])).map Transport.named).getD .udp

/-- The query ends at a second `?`, and a transport that is named nothing is UDP
as well. -/
def pageTransport (url : String) : Transport :=
  match firstTransport (between '?' url.toList) with
  | none => .udp
  | some value => if value = [] then .udp else .named value

/-- The transport named last and the one named first are the same, where the
scheme has one. -/
def SameTransport (url : String) : Prop :=
  "turn:".toList <+: url.toList.map Char.toLower → serverTransport url = pageTransport url

theorem plain_of_all {word : List Char}
    (h : (word.all fun c => Nat.blt c.toNat 128 && c != 'i' && c != 'k') = true) : Plain word := by
  intro c hc
  have hchar := List.all_eq_true.mp h c hc
  rw [Bool.and_eq_true, Bool.and_eq_true, bne_iff_ne, bne_iff_ne, Nat.blt_eq] at hchar
  exact ⟨hchar.1.1, hchar.1.2, hchar.2⟩

theorem plain_udp : Plain "udp".toList := plain_of_all (by decide)

theorem plain_tcp : Plain "tcp".toList := plain_of_all (by decide)

theorem plain_transport : Plain "transport".toList := plain_of_all (by decide)

theorem plain_turn : Plain "turn:".toList := plain_of_all (by decide)

theorem plain_turns : Plain "turns:".toList := plain_of_all (by decide)

theorem separator_question : Separator '?' := ⟨by decide, rfl⟩

theorem separator_ampersand : Separator '&' := ⟨by decide, rfl⟩

theorem separator_equals : Separator '=' := ⟨by decide, rfl⟩

/-- Either side's lower case names the same. -/
theorem Lowers.exact {value lowered : List Char} (h : Lowers value lowered) :
    Transport.exact lowered = Transport.named value := by
  unfold Transport.named Transport.exact
  simp only [h.eq_iff plain_udp, h.eq_iff plain_tcp]

/-! ## The server's transport -/

section Server

variable {tables : CaseTables}

theorem equalFold_iff {s word : List Char} (h : ∀ c ∈ word, c.toNat < 128) :
    equalFold tables s word = true ↔ s.map foldASCII = word.map foldASCII := by
  induction word generalizing s with
  | nil => cases s <;> simp [equalFold]
  | cons d word ih =>
    cases s with
    | nil => simp [equalFold]
    | cons c s =>
      have hrest : ∀ c ∈ word, c.toNat < 128 := fun c hc => h c (List.mem_cons_of_mem _ hc)
      simp only [equalFold, Bool.and_eq_true, List.map_cons, List.cons_eq_cons, ih hrest,
        tables.sameFold_iff c d (h d List.mem_cons_self)]

theorem takeTransport_eq (transport parameter : List Char) :
    takeTransport tables transport parameter =
      ((givenTransport parameter).map (·.map tables.toLower)).getD transport := by
  have hname (name : List Char) : equalFold tables name "transport".toList = true ↔
      name.map foldASCII = "transport".toList :=
    equalFold_iff fun c hc => (plain_transport c hc).1
  unfold takeTransport givenTransport
  cases cut '=' parameter with
  | mk name value =>
    by_cases htransport : name.map foldASCII = "transport".toList
    · rw [if_pos htransport]
      cases value with
      | none => rfl
      | some value => exact if_pos ((hname name).mpr htransport)
    · rw [if_neg htransport]
      cases value with
      | none => rfl
      | some value => exact if_neg (mt (hname name).mp htransport)

theorem foldl_takeTransport (parts : List (List Char)) (transport : List Char) :
    parts.foldl (takeTransport tables) transport =
      ((parts.reverse.findSome? givenTransport).map (·.map tables.toLower)).getD transport := by
  rw [List.foldl_eq_foldr_reverse]
  induction parts.reverse with
  | nil => rfl
  | cons parameter rest ih =>
    rw [List.foldr_cons, List.findSome?_cons, ih, takeTransport_eq]
    cases givenTransport parameter <;> rfl

/-- A prefix without the separator stands before the cut. -/
theorem isPrefix_cut {sep : Char} {word s : List Char} (hsep : Separator sep) (h : sep ∉ word) :
    word <+: (cut sep s).1.map Char.toLower ↔ word <+: s.map Char.toLower := by
  induction word generalizing s with
  | nil => simp
  | cons d word ih =>
    rw [List.mem_cons, not_or] at h
    cases s with
    | nil => simp [cut]
    | cons c s =>
      unfold cut
      by_cases hc : c = sep
      · rw [if_pos hc, List.map_cons, List.cons_prefix_cons, hc, hsep.fixed]
        simp [Ne.symm h.1]
      · rw [if_neg hc, List.map_cons, List.map_cons, List.cons_prefix_cons,
          List.cons_prefix_cons, ih h.2]

/-- The method of the scheme and the transport. -/
def methodOf (url : String) (transport : Transport) : String :=
  if "turns:".toList <+: url.toList.map Char.toLower then "turn-tls"
  else if "turn:".toList <+: url.toList.map Char.toLower then
    match transport with
    | .udp => "turn-udp"
    | .tcp => "turn-tcp"
    | .other => ""
  else ""

section Method

variable {url : String} {transport : Transport}

/-- The two schemes differ in their fifth letter. -/
theorem not_turn_of_turns {s : List Char} (h : "turns:".toList <+: s) : ¬ "turn:".toList <+: s := by
  intro hturn
  obtain ⟨rest, rfl⟩ := h
  obtain ⟨rest', heq⟩ := hturn
  simp at heq

theorem methodOf_turns (h : "turns:".toList <+: url.toList.map Char.toLower) :
    methodOf url transport = "turn-tls" :=
  if_pos h

theorem methodOf_turn (h : "turn:".toList <+: url.toList.map Char.toLower) :
    methodOf url transport =
      match transport with
      | .udp => "turn-udp"
      | .tcp => "turn-tcp"
      | .other => "" := by
  unfold methodOf
  rw [if_neg fun hturns => not_turn_of_turns hturns h, if_pos h]

theorem methodOf_neither (hturns : ¬ "turns:".toList <+: url.toList.map Char.toLower)
    (hturn : ¬ "turn:".toList <+: url.toList.map Char.toLower) : methodOf url transport = "" := by
  unfold methodOf
  rw [if_neg hturns, if_neg hturn]

theorem methodOf_eq_tls : methodOf url transport = "turn-tls" ↔
    "turns:".toList <+: url.toList.map Char.toLower := by
  by_cases hturns : "turns:".toList <+: url.toList.map Char.toLower
  · exact iff_of_true (methodOf_turns hturns) hturns
  · apply iff_of_false _ hturns
    by_cases hturn : "turn:".toList <+: url.toList.map Char.toLower
    · rw [methodOf_turn hturn]
      cases transport <;> decide
    · rw [methodOf_neither hturns hturn]
      decide

/-- The method of one transport, `wanted`. -/
theorem methodOf_eq {wanted : Transport} {method : String}
    (h : (wanted, method) ∈ [(Transport.udp, "turn-udp"), (Transport.tcp, "turn-tcp")]) :
    methodOf url transport = method ↔
      "turn:".toList <+: url.toList.map Char.toLower ∧ transport = wanted := by
  by_cases hturn : "turn:".toList <+: url.toList.map Char.toLower
  · rw [methodOf_turn hturn, iff_true_intro hturn, true_and]
    rw [List.mem_cons, List.mem_singleton] at h
    obtain h | h := h <;> obtain ⟨rfl, rfl⟩ := Prod.ext_iff.mp h <;> cases transport <;> decide
  · apply iff_of_false _ fun hboth => hturn hboth.1
    rw [List.mem_cons, List.mem_singleton] at h
    by_cases hturns : "turns:".toList <+: url.toList.map Char.toLower
    · rw [methodOf_turns hturns]
      obtain h | h := h <;> obtain ⟨rfl, rfl⟩ := Prod.ext_iff.mp h <;> decide
    · rw [methodOf_neither hturns hturn]
      obtain h | h := h <;> obtain ⟨rfl, rfl⟩ := Prod.ext_iff.mp h <;> decide

theorem methodOf_eq_udp : methodOf url transport = "turn-udp" ↔
    "turn:".toList <+: url.toList.map Char.toLower ∧ transport = .udp :=
  methodOf_eq (by decide)

theorem methodOf_eq_tcp : methodOf url transport = "turn-tcp" ↔
    "turn:".toList <+: url.toList.map Char.toLower ∧ transport = .tcp :=
  methodOf_eq (by decide)

end Method

theorem Transport.exact_eq_udp {value : List Char} :
    exact value = .udp ↔ value = "udp".toList := by
  unfold exact
  by_cases hudp : value = "udp".toList
  · rw [if_pos hudp]
    exact iff_of_true rfl hudp
  · rw [if_neg hudp]
    apply iff_of_false _ hudp
    split <;> nofun

theorem Transport.exact_eq_tcp {value : List Char} :
    exact value = .tcp ↔ value = "tcp".toList := by
  unfold exact
  by_cases hudp : value = "udp".toList
  · rw [if_pos hudp, hudp]
    decide
  · rw [if_neg hudp]
    by_cases htcp : value = "tcp".toList
    · rw [if_pos htcp]
      exact iff_of_true rfl htcp
    · rw [if_neg htcp]
      exact iff_of_false nofun htcp

theorem turnConnectionMethod_eq (url : String) :
    turnConnectionMethod tables url = methodOf url (serverTransport url) := by
  have hlowers := tables.map_lowers (cut '?' url.toList).1
  have hscheme {word : List Char} (hplain : Plain word) (hword : '?' ∉ word) :
      word.isPrefixOf ((cut '?' url.toList).1.map tables.toLower) = true ↔
        word <+: url.toList.map Char.toLower := by
    rw [List.isPrefixOf_iff_prefix, hlowers.isPrefix hplain, isPrefix_cut separator_question hword]
  have htransport (transport : List Char) :
      (if transport = "udp".toList then "turn-udp"
        else if transport = "tcp".toList then "turn-tcp" else "") =
      match Transport.exact transport with
      | .udp => "turn-udp"
      | .tcp => "turn-tcp"
      | .other => "" := by
    unfold Transport.exact
    split
    · rfl
    · split <;> rfl
  have hserver :
      Transport.exact (match (cut '?' url.toList).2 with
        | none => "udp".toList
        | some query => (query.splitOn '&').foldl (takeTransport tables) "udp".toList) =
      serverTransport url := by
    unfold serverTransport
    cases (cut '?' url.toList).2 with
    | none => rfl
    | some query =>
      show Transport.exact ((query.splitOn '&').foldl (takeTransport tables) "udp".toList) =
        ((lastTransport query).map Transport.named).getD .udp
      rw [foldl_takeTransport]
      show Transport.exact (((lastTransport query).map _).getD _) = _
      cases lastTransport query with
      | none => rfl
      | some value => exact (tables.map_lowers value).exact
  unfold turnConnectionMethod methodOf
  dsimp only
  rw [htransport, hserver]
  simp only [hscheme plain_turns (by decide), Bool.not_eq_true', Bool.eq_false_iff, Ne,
    hscheme plain_turn (by decide)]
  by_cases hturns : "turns:".toList <+: url.toList.map Char.toLower
  · rw [if_pos hturns, if_pos hturns]
  · rw [if_neg hturns, if_neg hturns]
    by_cases hturn : "turn:".toList <+: url.toList.map Char.toLower
    · rw [if_pos hturn, if_neg (not_not.mpr hturn)]
    · rw [if_neg hturn, if_pos hturn]

end Server

/-! ## The page's transport -/

section Page

variable {tables : CaseTables}

theorem Lowers.between {sep : Char} {s t : List Char} (h : Lowers s t) (hsep : Separator sep) :
    Lowers (Settings.between sep s) (Settings.between sep t) := by
  have hrest := (h.cut hsep).2
  unfold Settings.between
  revert hrest
  generalize (Settings.cut sep s).2 = before
  generalize (Settings.cut sep t).2 = after
  intro hrest
  cases hrest with
  | none => exact .nil
  | some hrest => exact (hrest.cut hsep).1

theorem getD_splitOn_one (sep : Char) (s : List Char) :
    (s.splitOn sep)[1]?.getD [] = between sep s := by
  unfold between
  rw [splitOn_eq_cut sep s]
  cases (cut sep s).2 with
  | none => rfl
  | some rest =>
    rw [Option.elim_some, splitOn_eq_cut sep rest]
    rfl

theorem findTransport_cons (part : List Char) (parts : List (List Char)) :
    findTransport (part :: parts) =
      if (cut '=' part).1 = "transport".toList then
        if between '=' part = [] then "udp".toList else between '=' part
      else findTransport parts := by
  unfold findTransport
  rw [List.map_cons, List.find?_cons, splitOn_eq_cut '=' part]
  by_cases hname : (cut '=' part).1 = "transport".toList
  · rw [if_pos hname]
    simp only [List.head?_cons, hname, beq_self_eq_true]
    unfold between
    cases (cut '=' part).2 with
    | none => rfl
    | some rest =>
      rw [Option.elim_some, splitOn_eq_cut '=' rest]
      rfl
  · rw [if_neg hname]
    have hhead : (((cut '=' part).1 :: (cut '=' part).2.elim [] (·.splitOn '=')).head? ==
        some "transport".toList) = false := by
      rw [List.head?_cons]
      exact beq_false_of_ne fun heq => hname (Option.some_inj.mp heq)
    rw [hhead]

/-- The first transport of the parts as they were before they were lowered. -/
theorem exact_findTransport {parts lowered : List (List Char)}
    (h : List.Forall₂ Lowers parts lowered) :
    Transport.exact (findTransport lowered) =
      match (parts.find? fun parameter =>
        (cut '=' parameter).1.map Char.toLower = "transport".toList).map (between '=') with
      | none => .udp
      | some value => if value = [] then .udp else .named value := by
  induction h with
  | nil => rfl
  | @cons part lowered parts rest hpart _ ih =>
    rw [findTransport_cons, List.find?_cons]
    have hname := (hpart.cut separator_equals).1.eq_iff plain_transport
    have hvalue := hpart.between separator_equals
    by_cases htransport : (cut '=' part).1.map Char.toLower = "transport".toList
    · rw [if_pos (hname.mpr htransport), decide_eq_true htransport]
      show _ = if between '=' part = [] then Transport.udp else .named (between '=' part)
      by_cases hnil : between '=' part = []
      · rw [if_pos (hvalue.eq_nil.mpr hnil), if_pos hnil]
        rfl
      · rw [if_neg (mt hvalue.eq_nil.mp hnil), if_neg hnil, hvalue.exact]
    · rw [if_neg (mt hname.mp htransport), decide_eq_false htransport, ih]

/-- What the page selects a URL for, of the methods that take TURN. -/
theorem selectURL_iff (url : String) {method : String}
    (h : method ∈ ["turn-udp", "turn-tcp", "turn-tls"]) :
    selectURL tables method url = true ↔ methodOf url (pageTransport url) = method := by
  have hlowers := tables.toLowerCase_lowers url.toList
  have hscheme {word : List Char} (hplain : Plain word) :
      word.isPrefixOf (tables.toLowerCase url.toList) = true ↔
        word <+: url.toList.map Char.toLower := by
    rw [List.isPrefixOf_iff_prefix, hlowers.isPrefix hplain]
  have hpage :
      Transport.exact (findTransport
        (((tables.toLowerCase url.toList).splitOn '?')[1]?.getD [] |>.splitOn '&')) =
      pageTransport url := by
    rw [getD_splitOn_one]
    exact exact_findTransport
      ((hlowers.between separator_question).splitOn separator_ampersand)
  rw [← hpage]
  unfold selectURL
  dsimp only
  generalize findTransport _ = transport
  rw [List.mem_cons, List.mem_cons, List.mem_singleton] at h
  obtain rfl | rfl | rfl := h
  case inl =>
    rw [methodOf_eq_udp, Transport.exact_eq_udp, ← hscheme plain_turn]
    simp
  case inr.inl =>
    rw [methodOf_eq_tcp, Transport.exact_eq_tcp, ← hscheme plain_turn]
    simp
  case inr.inr =>
    rw [methodOf_eq_tls, ← hscheme plain_turns]
    simp

end Page

/-! ## Both sides -/

/-- Page and server classify the URL alike. -/
def Alike (tables : CaseTables) (url : String) : Prop :=
  ∀ method ∈ ["turn-udp", "turn-tcp", "turn-tls"],
    (selectURL tables method url = true ↔ turnConnectionMethod tables url = method)

theorem alike_iff (tables : CaseTables) (url : String) :
    Alike tables url ↔ SameTransport url := by
  unfold Alike
  simp only [turnConnectionMethod_eq]
  constructor
  · intro h hturn
    have hudp := h "turn-udp" (by simp)
    have htcp := h "turn-tcp" (by simp)
    rw [selectURL_iff url (by simp), methodOf_eq_udp, methodOf_eq_udp] at hudp
    rw [selectURL_iff url (by simp), methodOf_eq_tcp, methodOf_eq_tcp] at htcp
    simp only [hturn, true_and] at hudp htcp
    cases hserver : serverTransport url with
    | udp => exact (hudp.mpr hserver).symm
    | tcp => exact (htcp.mpr hserver).symm
    | other =>
      cases hpage : pageTransport url with
      | udp => exact absurd (hudp.mp hpage) (by simp [hserver])
      | tcp => exact absurd (htcp.mp hpage) (by simp [hserver])
      | other => rfl
  · intro h method hmethod
    rw [selectURL_iff url hmethod]
    by_cases hturn : "turn:".toList <+: url.toList.map Char.toLower
    · rw [h hturn]
    · unfold methodOf
      simp only [hturn, if_false]

/-- What the server reports available is left over by the page's filter. -/
theorem filterICEServers_ne_nil {tables : CaseTables} {servers : List BrowserICEServer}
    (hsame : ∀ server ∈ servers, ∀ url ∈ server.urls, Alike tables url) {method : String}
    (hmethod : method ∈ ["turn-udp", "turn-tcp", "turn-tls"])
    (h : (servers.any fun server => offers tables server.urls method) = true) :
    filterICEServers tables servers method ≠ [] := by
  obtain ⟨server, hserver, hoffers⟩ := List.any_eq_true.mp h
  unfold offers at hoffers
  rw [Bool.and_eq_true, List.any_eq_true] at hoffers
  obtain ⟨-, url, hurl, hmatch⟩ := hoffers
  have hselect : selectURL tables method url = true :=
    (hsame server hserver url hurl method hmethod).mpr (beq_iff_eq.mp hmatch)
  have hauto : method ≠ "auto" := by
    rintro rfl
    simp at hmethod
  unfold filterICEServers
  rw [if_neg hauto]
  have hmem : url ∈ server.urls.filter (selectURL tables method) :=
    List.mem_filter.mpr ⟨hurl, hselect⟩
  apply List.ne_nil_of_mem
  rw [List.mem_filter]
  exact ⟨List.mem_map_of_mem hserver, bne_iff_ne.mpr (List.ne_nil_of_mem hmem)⟩

theorem settle_id (cfg : Config) (tables : CaseTables) (method : BrowserConnectionMethod) :
    (settle cfg tables method).id = method.id := by
  unfold settle
  dsimp only
  split
  · rfl
  · split
    · rfl
    · split <;> rfl

theorem settle_available (cfg : Config) (tables : CaseTables)
    (method : BrowserConnectionMethod) :
    (settle cfg tables method).available = method.available := by
  unfold settle
  dsimp only
  split
  · rfl
  · split
    · rfl
    · split <;> rfl

/-- A TURN method is reported available where a server has a URL for it. -/
theorem available_of_mem {tables : CaseTables} {cfg : Config} {servers : List BrowserICEServer}
    {method : BrowserConnectionMethod}
    (h : method ∈ browserConnectionMethods tables cfg servers)
    (hid : method.id ∈ ["turn-udp", "turn-tcp", "turn-tls"]) (havailable : method.available = true) :
    (servers.any fun server => offers tables server.urls method.id) = true := by
  obtain ⟨before, hbefore, rfl⟩ := List.mem_map.mp h
  rw [settle_id] at hid ⊢
  rw [settle_available] at havailable
  simp only [List.mem_cons, List.not_mem_nil, or_false] at hbefore
  obtain rfl | rfl | rfl | rfl | rfl := hbefore
  case inl => simp at hid
  case inr.inl => simp at hid
  all_goals exact havailable

/-- **Page and server** classify a URL alike just if its last transport and its
first are the same; and where they do, no method the server reports available
filters down to no server in the page. -/
theorem alike_iff_sameTransport (tables : CaseTables) :
    (∀ url, Alike tables url ↔ SameTransport url) ∧
    ∀ cfg servers, (∀ server ∈ servers, ∀ url ∈ server.urls, SameTransport url) →
      ∀ method ∈ browserConnectionMethods tables cfg servers,
        method.id ∈ ["turn-udp", "turn-tcp", "turn-tls"] → method.available = true →
        filterICEServers tables servers method.id ≠ [] := by
  refine ⟨alike_iff tables, ?_⟩
  intro cfg servers hsame method hmethod hid havailable
  exact filterICEServers_ne_nil
    (fun server hserver url hurl => (alike_iff tables url).mpr (hsame server hserver url hurl)) hid
    (available_of_mem hmethod hid havailable)

/-- The tables of ASCII, where every other character is its own lower case. -/
def asciiTables : CaseTables where
  toLower := Char.toLower
  sameFold c d := foldASCII c == foldASCII d
  toLowerCase s := s.map Char.toLower
  toLower_lowers := lowersChar_toLower
  sameFold_iff _ _ _ := beq_iff_eq
  toLowerCase_lowers s := by
    induction s with
    | nil => exact .nil
    | cons c s ih => exact .cons (lowersChar_toLower c) ih
where
  lowersChar_toLower (c : Char) : LowersChar c [c.toLower] := by
    unfold LowersChar
    by_cases hascii : c.toNat < 128
    · rw [if_pos hascii]
    · rw [if_neg hascii]
      cases toLower_eq_self_or c with
      | inl hself => simp [hself, hascii]
      | inr hupper => omega

theorem alike_iff_sameTransport_ascii :
    Alike asciiTables "turn:relay:3478?TRANSPORT=Tcp" ∧
      ¬ Alike asciiTables "turn:relay:3478?transport=tcp=" := by
  obtain ⟨h, -⟩ := alike_iff_sameTransport asciiTables
  rw [h, h]
  constructor
  · exact fun _ => by decide +kernel
  · intro hsame
    exact absurd (hsame (by decide +kernel)) (by decide +kernel)

/-- `url.Parse` of a URL without an authority; the samples need no more. -/
def sampleParsers : Stdlib where
  parseIP _ := false
  parseCIDR _ := false
  parseURL url :=
    match cut ':' url.toList with
    | (_, none) => none
    | (scheme, some rest) =>
      some ⟨.ofList (scheme.map Char.toLower), "", .ofList (cut '?' rest).1⟩
  atoi text := .error text
  parseBool text := .error text
  quote text := text

/-- A relay that is named for both transports. -/
def relay : BrowserICEServer := ⟨["turn:relay:3478?transport=udp&transport=tcp"], "", ""⟩

/-- The server reads the last transport and the page the first: TCP is reported
available, and nothing is left of it in the page. -/
theorem not_alike_of_repeated :
    validICEServerURL sampleParsers "turn:relay:3478?transport=udp&transport=tcp"
        ["turn", "turns"] = true ∧
      ¬ Alike asciiTables "turn:relay:3478?transport=udp&transport=tcp" ∧
      offers asciiTables relay.urls "turn-tcp" = true ∧
      filterICEServers asciiTables [relay] "turn-tcp" = [] := by
  refine ⟨by decide +kernel, ?_, by decide +kernel, by decide +kernel⟩
  intro h
  have htcp := h "turn-tcp" (by simp)
  exact absurd (htcp.mpr (by decide +kernel)) (by decide +kernel)

end SlowMeet.Settings
