import SlowMeet.Meeting

/-!
# Compressed responses

`withGzip` of `internal/httpserver`: the writer it wraps a handler's in, and
the deferred `Close` of the compressor, which writes an empty gzip member
after a response that was not compressed. A header value is its list of
characters, empty when the header is absent.
-/

namespace SlowMeet.Http

abbrev Bytes := List UInt8

/-- The levels the server compresses with. -/
inductive Level
  | bestSpeed
  | bestCompression
  deriving DecidableEq, Repr

/-- `compress/gzip`: what a writer makes of all it is given between `Reset`
and `Close`, and what a reader returns. A gzip file is a series of members,
and reads as their contents in turn. -/
structure Gzip where
  compress : Level → Bytes → Bytes
  decompress : Bytes → Option Bytes
  decompress_members : ∀ members : List (Level × Bytes), members ≠ [] →
    decompress (members.flatMap fun m => compress m.1 m.2) = some (members.flatMap (·.2))
  compress_ne_nil : ∀ level data, compress level data ≠ []

namespace Gzip

variable (gzip : Gzip) {body data : Bytes} {level : Level}

/-- A series of members that reads as `data`. -/
def Members (body data : Bytes) : Prop :=
  ∃ members : List (Level × Bytes), members ≠ [] ∧
    body = members.flatMap (fun m => gzip.compress m.1 m.2) ∧ data = members.flatMap (·.2)

variable {gzip}

theorem members_compress (level : Level) (data : Bytes) :
    gzip.Members (gzip.compress level data) data :=
  ⟨[(level, data)], List.cons_ne_nil _ _, by simp, by simp⟩

/-- An empty member adds nothing. -/
theorem Members.append_empty (h : gzip.Members body data) (level : Level) :
    gzip.Members (body ++ gzip.compress level []) data := by
  obtain ⟨members, hne, rfl, rfl⟩ := h
  exact ⟨members ++ [(level, [])], by simp [hne], by simp, by simp⟩

theorem Members.decompress (h : gzip.Members body data) : gzip.decompress body = some data := by
  obtain ⟨members, hne, rfl, rfl⟩ := h
  exact gzip.decompress_members members hne

/-- Nothing is lost. -/
theorem compress_injective (level : Level) : Function.Injective (gzip.compress level) := by
  intro a b hab
  have hmembers : ∀ data, gzip.Members (gzip.compress level data) data := members_compress level
  have ha := (hmembers a).decompress
  have hb := (hmembers b).decompress
  rw [hab, hb] at ha
  exact (Option.some.inj ha).symm

end Gzip

inductive Method
  | get
  | head
  | other
  deriving DecidableEq, Repr

structure Request where
  method : Method
  path : List Char
  acceptEncoding : List Char
  upgrade : List Char
  range : List Char
  /-- The candidates of `If-None-Match`, split at the commas and trimmed. -/
  ifNoneMatch : List (List Char)
  deriving DecidableEq, Repr

structure Response where
  status : Nat
  contentType : List Char
  contentEncoding : List Char
  contentLength : Option Nat
  etag : List Char
  cacheControl : List Char
  /-- `Vary` names `Accept-Encoding`. -/
  vary : Bool
  body : Bytes
  deriving DecidableEq, Repr

/-- Go's `unicode.ToLower`, as far as ASCII letters come out. -/
def toLower (char : Char) : Char :=
  if char.toNat = 0x130 then 'i' else if char.toNat = 0x212A then 'k' else char.toLower

/-- `strings.Contains`. -/
def contains (needle : List Char) : List Char → Bool
  | [] => needle.isEmpty
  | char :: text => needle.isPrefixOf (char :: text) || contains needle text

def acceptsGzip (req : Request) : Bool :=
  if "websocket".toList.isPrefixOf (req.upgrade.map toLower) then false
  else contains "gzip".toList (req.acceptEncoding.map toLower)

def compressibleContentType (contentType : List Char) : Bool :=
  let lower := contentType.map toLower
  let name := if ';' ∈ lower then trimSpace (lower.takeWhile (· ≠ ';')) else lower
  "text/".toList.isPrefixOf name || name = "application/javascript".toList ||
    name = "application/json".toList || name = "image/svg+xml".toList

/-- `net/http` takes no body with these. -/
def bodyAllowed (status : Nat) : Bool :=
  !(100 ≤ status && status ≤ 199) && status ≠ 204 && status ≠ 304

variable (gzip : Gzip) (req : Request) (r : Response)

def gzipEncoding : List Char := "gzip".toList

/-- `gz.Close` on a compressor nothing was written to writes an empty member.
`net/http` drops it after a declared length, and where no body is allowed. -/
def closing : Bytes :=
  if r.contentLength.isNone && bodyAllowed r.status then gzip.compress .bestSpeed [] else []

/-- What becomes of the response a handler makes, which calls `WriteHeader`
or writes. -/
def withGzip : Response :=
  if !acceptsGzip req || req.range ≠ [] then r
  else if r.contentEncoding = [] && compressibleContentType r.contentType then
    { r with
      contentLength := none
      contentEncoding := gzipEncoding
      vary := true
      body := if bodyAllowed r.status then gzip.compress .bestSpeed r.body else [] }
  else { r with body := r.body ++ closing gzip r }

/-- What a client reads in a response. -/
def Response.content : Option Bytes :=
  if r.contentEncoding = [] then some r.body
  else if r.contentEncoding = gzipEncoding then gzip.decompress r.body
  else none

/-- A body that is encoded is gzip. -/
def Response.WellEncoded : Prop :=
  r.contentEncoding ≠ [] → r.contentEncoding = gzipEncoding ∧ ∃ data, gzip.Members r.body data

variable {gzip req r}

theorem gzipEncoding_ne_nil : gzipEncoding ≠ [] := by decide

theorem content_of_members {data : Bytes} (hencoding : r.contentEncoding = gzipEncoding)
    (hmembers : gzip.Members r.body data) : r.content gzip = some data := by
  unfold Response.content
  rw [hencoding, if_neg gzipEncoding_ne_nil, if_pos rfl]
  exact hmembers.decompress

/-- A compressed response reads as the plain one. -/
theorem content_compressed (hplain : r.contentEncoding = [])
    (htype : compressibleContentType r.contentType = true) (hbody : bodyAllowed r.status = true)
    (haccepts : acceptsGzip req = true) (hrange : req.range = []) :
    (withGzip gzip req r).content gzip = r.content gzip := by
  have hread : r.content gzip = some r.body := if_pos hplain
  rw [hread]
  unfold withGzip
  rw [if_neg (by simp [haccepts, hrange]), if_pos (by simp [hplain, htype])]
  apply content_of_members rfl
  dsimp only
  rw [if_pos hbody]
  exact Gzip.members_compress ..

/-- A response that is compressed already, or of a declared length, is left
as it reads. -/
theorem content_passed (hencoded : r.WellEncoded gzip)
    (hknown : r.contentEncoding ≠ [] ∨ r.contentLength ≠ none) :
    ({ r with body := r.body ++ closing gzip r } : Response).content gzip = r.content gzip := by
  by_cases hplain : r.contentEncoding = []
  · have hlength : r.contentLength ≠ none := hknown.resolve_left fun hne => hne hplain
    obtain ⟨length, hlength⟩ := Option.ne_none_iff_exists'.mp hlength
    have hnothing : closing gzip r = [] := by
      unfold closing
      rw [hlength]
      rfl
    rw [hnothing, List.append_nil]
  · obtain ⟨hgzip, data, hmembers⟩ := hencoded hplain
    have hmembers' : gzip.Members (r.body ++ closing gzip r) data := by
      unfold closing
      split_ifs
      · exact hmembers.append_empty .bestSpeed
      · rw [List.append_nil]
        exact hmembers
    rw [content_of_members hgzip hmembers]
    exact content_of_members (r := { r with body := r.body ++ closing gzip r }) hgzip hmembers'

/-- What the middleware does, case by case. -/
theorem withGzip_cases (gzip : Gzip) (req : Request) (r : Response) :
    (acceptsGzip req = false ∨ req.range ≠ []) ∧ withGzip gzip req r = r ∨
      (acceptsGzip req = true ∧ req.range = []) ∧
        ((r.contentEncoding = [] ∧ compressibleContentType r.contentType = true) ∨
          (¬(r.contentEncoding = [] ∧ compressibleContentType r.contentType = true) ∧
            withGzip gzip req r = { r with body := r.body ++ closing gzip r })) := by
  by_cases hpassed : acceptsGzip req = false ∨ req.range ≠ []
  · exact Or.inl ⟨hpassed, if_pos (by simpa using hpassed)⟩
  · right
    have hready : acceptsGzip req = true ∧ req.range = [] := by simpa using hpassed
    refine ⟨hready, ?_⟩
    by_cases hcompress : r.contentEncoding = [] ∧ compressibleContentType r.contentType = true
    · exact Or.inl hcompress
    · refine Or.inr ⟨hcompress, ?_⟩
      unfold withGzip
      rw [if_neg (by simp [hready]), if_neg (by simpa using hcompress)]

/-- The middleware preserves what a response says that names its encoding,
its length or a type to compress. -/
theorem content_withGzip (hencoded : r.WellEncoded gzip) (hbody : bodyAllowed r.status = true)
    (hknown : r.contentEncoding ≠ [] ∨ compressibleContentType r.contentType = true ∨
      r.contentLength ≠ none) :
    (withGzip gzip req r).content gzip = r.content gzip := by
  rcases withGzip_cases gzip req r with
    ⟨-, hsame⟩ | ⟨⟨haccepts, hrange⟩, ⟨hplain, htype⟩ | ⟨hother, hclosed⟩⟩
  · rw [hsame]
  · exact content_compressed hplain htype hbody haccepts hrange
  · rw [hclosed]
    apply content_passed hencoded
    rcases hknown with hne | htype | hlength
    · exact Or.inl hne
    · exact Or.inl fun hplain => hother ⟨hplain, htype⟩
    · exact Or.inr hlength

/-- **The middleware preserves what a response says**, but for an uncompressed
response of unknown length and another type: the closing member is left in its
body. -/
theorem content_withGzip_iff (gzip : Gzip) (req : Request) (r : Response)
    (hencoded : r.WellEncoded gzip) (hbody : bodyAllowed r.status = true) :
    (withGzip gzip req r).content gzip = r.content gzip ↔
      acceptsGzip req = false ∨ req.range ≠ [] ∨ r.contentEncoding ≠ [] ∨
        compressibleContentType r.contentType = true ∨ r.contentLength ≠ none := by
  constructor
  · intro hsame
    by_contra hnone
    simp only [not_or, not_not, Bool.not_eq_false, Bool.not_eq_true] at hnone
    obtain ⟨haccepts, hrange, hplain, htype, hlength⟩ := hnone
    have hclosed : withGzip gzip req r = { r with body := r.body ++ closing gzip r } := by
      unfold withGzip
      rw [if_neg (by simp [haccepts, hrange]), if_neg (by simp [htype])]
    have hclosing : closing gzip r = gzip.compress .bestSpeed [] := by
      unfold closing
      rw [if_pos (by simp [hlength, hbody])]
    have hread : r.content gzip = some r.body := if_pos hplain
    have hread' : ({ r with body := r.body ++ closing gzip r } : Response).content gzip =
        some (r.body ++ closing gzip r) := if_pos hplain
    rw [hclosed, hread, hread', hclosing, Option.some.injEq, List.append_right_eq_self] at hsame
    exact gzip.compress_ne_nil _ _ hsame
  · rintro (haccepts | hrange | hknown)
    · have hsame : withGzip gzip req r = r := if_pos (by simp [haccepts])
      rw [hsame]
    · have hsame : withGzip gzip req r = r := if_pos (by simp [hrange])
      rw [hsame]
    · exact content_withGzip hencoded hbody hknown

/-! ### A redirect without a type -/

namespace Gzip.Framed

def header : Level → Bytes
  | .bestSpeed => [0x1f, 0x8b, 8, 0, 0, 0, 0, 0, 4, 0xff]
  | .bestCompression => [0x1f, 0x8b, 8, 0, 0, 0, 0, 0, 2, 0xff]

/-- The last block, which is empty, with the checksum and the length of an
empty member. -/
def trailer : Bytes := [1, 0, 0, 0xff, 0xff, 0, 0, 0, 0, 0, 0, 0, 0]

def frame (data : Bytes) : Bytes := data.flatMap fun byte => [2, byte]

/-- Reads frames, after as many bytes as are to be skipped. -/
def read : Nat → Bytes → Option Bytes
  | _, [] => some []
  | skip + 1, _ :: rest => read skip rest
  | 0, [_] => none
  | 0, kind :: byte :: rest =>
    if kind = 2 then (read 0 rest).map (byte :: ·)
    else read (if kind = 1 then 11 else 8) rest

theorem read_header (level : Level) (rest : Bytes) :
    read 0 (header level ++ rest) = read 0 rest := by
  cases level <;> rfl

theorem read_trailer (rest : Bytes) : read 0 (trailer ++ rest) = read 0 rest := rfl

theorem read_frame (data rest : Bytes) :
    read 0 (frame data ++ rest) = (read 0 rest).map (data ++ ·) := by
  induction data with
  | nil => simp [frame]
  | cons byte data ih =>
    show (read 0 (frame data ++ rest)).map (byte :: ·) = _
    rw [ih, Option.map_map]
    rfl

end Gzip.Framed

open Gzip.Framed in
/-- A writer whose empty members are those of `compress/gzip`, and that puts
every byte into a frame of its own. -/
def Gzip.framed : Gzip where
  compress level data := header level ++ frame data ++ trailer
  decompress := read 0
  decompress_members members _ := by
    induction members with
    | nil => rfl
    | cons first rest ih =>
      rw [List.flatMap_cons, List.flatMap_cons, List.append_assoc, List.append_assoc, read_header,
        read_frame, read_trailer]
      cases rest with
      | nil => rfl
      | cons second rest =>
        rw [ih (List.cons_ne_nil _ _)]
        rfl
  compress_ne_nil level data h := by cases level <;> cases h

/-- The redirect of `/admin`, as a method other than `GET` gets it. -/
def adminRedirect : Response where
  status := 302
  contentType := []
  contentEncoding := []
  contentLength := none
  etag := []
  cacheControl := []
  vary := false
  body := []

theorem content_withGzip_iff_redirect : ∃ req : Request, acceptsGzip req = true ∧
    (withGzip .framed req adminRedirect).content .framed ≠ adminRedirect.content .framed := by
  let req : Request := ⟨.other, "/admin".toList, "gzip".toList, [], [], []⟩
  refine ⟨req, by decide, fun hsame => ?_⟩
  have hconditions := (content_withGzip_iff .framed req adminRedirect
    (fun hencoded => absurd rfl hencoded) (by decide)).mp hsame
  revert hconditions
  decide

end SlowMeet.Http
