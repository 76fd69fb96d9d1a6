import Mathlib.Data.List.GetD
import Mathlib.Data.Set.Basic
import Mathlib.Logic.Function.Basic
import SlowMeet.Http.Gzip
import SlowMeet.Lib.Lts

/-!
# Static files and the clients that cache them

`newStaticFileHandler` of `internal/httpserver` behind `withGzip`: branding,
the precompressed variants and the entity tags. A client keeps what it was
served and revalidates it by its tags, also after the server was deployed
again with other files.
-/

namespace SlowMeet.Http

open Lib

/-- `%x` of a digest: lower-case hexadecimal digits. -/
structure Digest where
  text : List Char
  hex : ∀ char ∈ text, char ∈ "0123456789abcdef".toList

/-- What the handler has from the standard library and from the host. -/
structure Platform where
  gzip : Gzip
  sha256 : Bytes → Digest
  typeByExtension : List Char → List Char
  /-- `http.ServeContent` for a request with a range. -/
  serveRange : Request → Response → Bytes → Response
  /-- What is served where there is no file. No other handler sets a tag. -/
  notFound : Request → Response
  notFound_etag : ∀ req, (notFound req).etag = []

/-- What a server is deployed with. -/
structure Site where
  files : List (List Char × Bytes)
  appName : Bytes

namespace Site

def ascii (text : String) : Bytes := text.toList.map fun char => char.toNat.toUInt8

/-- `html.EscapeString`. -/
def escapeString (text : Bytes) : Bytes :=
  text.flatMap fun byte =>
    if byte = 38 then ascii "&amp;"
    else if byte = 39 then ascii "&#39;"
    else if byte = 60 then ascii "&lt;"
    else if byte = 62 then ascii "&gt;"
    else if byte = 34 then ascii "&#34;"
    else [byte]

/-- The application's name brings no markup into a page. -/
theorem escapeString_plain (text : Bytes) :
    ∀ byte ∈ escapeString text, byte ∉ ([34, 39, 60, 62] : Bytes) := by
  have hall : (["&amp;", "&#39;", "&lt;", "&gt;", "&#34;"].all fun entity =>
      (ascii entity).all fun byte => decide (byte ∉ ([34, 39, 60, 62] : Bytes))) = true := by
    decide
  have hentities : ∀ entity ∈ ["&amp;", "&#39;", "&lt;", "&gt;", "&#34;"],
      ∀ byte ∈ ascii entity, byte ∉ ([34, 39, 60, 62] : Bytes) := by
    intro entity hentity byte hbyte
    have hentity' := List.all_eq_true.mp hall entity hentity
    exact of_decide_eq_true (List.all_eq_true.mp hentity' byte hbyte)
  intro byte hbyte
  obtain ⟨raw, -, hraw⟩ := List.mem_flatMap.mp hbyte
  split_ifs at hraw with hamp happos hlt hgt hquote
  · exact hentities _ (by simp) byte hraw
  · exact hentities _ (by simp) byte hraw
  · exact hentities _ (by simp) byte hraw
  · exact hentities _ (by simp) byte hraw
  · exact hentities _ (by simp) byte hraw
  · obtain rfl := List.mem_singleton.mp hraw
    simp [happos, hlt, hgt, hquote]

/-- `strings.ReplaceAll`, over at most `n` bytes. -/
def replaceAll (old new : Bytes) : Nat → Bytes → Bytes
  | 0, text => text
  | _ + 1, [] => []
  | n + 1, byte :: text =>
    if old.isPrefixOf (byte :: text) then
      new ++ replaceAll old new n ((byte :: text).drop old.length)
    else byte :: replaceAll old new n text

def isHTML (name : List Char) : Bool := ".html".toList.isSuffixOf name

variable (site : Site)

def brand (raw : Bytes) : Bytes :=
  let appName := if site.appName = [] then ascii "SlowMeet" else site.appName
  replaceAll (ascii "\x7b\x7bAPP_NAME\x7d\x7d") (escapeString appName) raw.length raw

/-- What is served of the file `name`. -/
def contents (name : List Char) : Option Bytes :=
  (site.files.lookup name).map fun raw => if isHTML name then site.brand raw else raw

/-- The file behind a path. -/
def assetName : List Char → Option (List Char)
  | ['/'] => some "index.html".toList
  | '/' :: name => some name
  | _ => none

def asset (path : List Char) : Option Bytes := (assetName path).bind site.contents

end Site

namespace Platform

open Site

variable (p : Platform) (site : Site) (req : Request)

/-- The tag of an identity representation. -/
def etag (contents : Bytes) : List Char := ['"'] ++ (p.sha256 contents).text ++ ['"']

def compress (contents : Bytes) : Bytes := p.gzip.compress .bestCompression contents

/-- The tag of the precompressed one. -/
def compressedEtag (contents : Bytes) : List Char :=
  ['"'] ++ (p.sha256 (p.compress contents)).text ++ "-gz\"".toList

def gzipBytes (contents : Bytes) : Option Bytes :=
  if (p.compress contents).length < contents.length then some (p.compress contents) else none

def trimWeak (candidate : List Char) : List Char :=
  if "W/".toList.isPrefixOf candidate then candidate.drop 2 else candidate

def matchesETag (candidates : List (List Char)) (etag : List Char) : Bool :=
  candidates.any fun candidate =>
    candidate = ['*'] || candidate = etag || trimWeak candidate = etag

/-- The check of `http.ServeContent` itself. -/
def checkIfNoneMatch (candidates : List (List Char)) (etag : List Char) : Bool :=
  candidates.any fun candidate =>
    candidate = ['*'] || (etag ≠ [] && trimWeak candidate = trimWeak etag)

def blank : Response where
  status := 200
  contentType := []
  contentEncoding := []
  contentLength := none
  etag := []
  cacheControl := []
  vary := false
  body := []

/-- `http.ServeContent`; `header` is what the handler has set. -/
def serveContent (name : List Char) (header : Response) (contents : Bytes) : Response :=
  if checkIfNoneMatch req.ifNoneMatch header.etag then
    if req.method = .other then { header with status := 412 }
    else { header with status := 304, contentType := [], contentEncoding := [] }
  else if req.range ≠ [] then p.serveRange req header contents
  else { header with
    contentType := p.typeByExtension name
    contentLength := if header.contentEncoding = [] then some contents.length else none
    body := if req.method = .head then [] else contents }

/-- What both variants do with their headers set. -/
def serveTagged (name : List Char) (header : Response) (contents : Bytes) : Response :=
  if matchesETag req.ifNoneMatch header.etag then { header with status := 304 }
  else p.serveContent req name header contents

def servePrecompressed (name : List Char) (contents : Bytes) (cacheControl : String) :
    Option Response :=
  match p.gzipBytes contents with
  | none => none
  | some compressed =>
    if req.range ≠ [] || !acceptsGzip req then none
    else some (p.serveTagged req name { blank with
      contentEncoding := gzipEncoding
      vary := true
      etag := p.compressedEtag contents
      cacheControl := cacheControl.toList } compressed)

def serveAsset (name : List Char) (contents : Bytes) (cacheControl : String) : Response :=
  if req.method = .other then p.serveContent req name blank contents
  else
    (p.servePrecompressed req name contents cacheControl).getD
      (p.serveTagged req name
        { blank with etag := p.etag contents, cacheControl := cacheControl.toList } contents)

/-- The handler of `newStaticFileHandler`. -/
def staticFileHandler : Response :=
  match assetName req.path with
  | none => p.notFound req
  | some name =>
    match site.contents name with
    | none => p.notFound req
    | some contents =>
      p.serveAsset req name contents
        (if isHTML name then "no-cache" else "public, max-age=0, must-revalidate")

/-- What the server answers; `net/http` sends no body to `HEAD`. -/
def respond : Response :=
  let response := withGzip p.gzip req (p.staticFileHandler site req)
  if req.method = .head then { response with body := [] } else response

/-! ## One request -/

variable {p} {site} {req} {name : List Char} {header : Response} {contents body : Bytes}

/-- The tags of the two representations of a file. -/
def TagOf (p : Platform) (contents : Bytes) (etag : List Char) : Prop :=
  etag = p.etag contents ∨ etag = p.compressedEtag contents

theorem TagOf.quoted {etag : List Char} (h : p.TagOf contents etag) :
    ∃ rest, etag = '"' :: rest := by
  rcases h with rfl | rfl
  · exact ⟨_, rfl⟩
  · exact ⟨_, rfl⟩

/-- A tag is no weak one. -/
theorem TagOf.trimWeak {etag : List Char} (h : p.TagOf contents etag) :
    Platform.trimWeak etag = etag := by
  obtain ⟨rest, rfl⟩ := h.quoted
  rfl

/-- `http.ServeContent` finds nothing that the handler has not found. -/
theorem TagOf.checkIfNoneMatch {etag : List Char} (h : p.TagOf contents etag)
    {candidates : List (List Char)} (hmatches : matchesETag candidates etag = false) :
    Platform.checkIfNoneMatch candidates etag = false := by
  unfold matchesETag at hmatches
  unfold Platform.checkIfNoneMatch
  rw [List.any_eq_false] at hmatches ⊢
  intro candidate hmem
  have hno := hmatches candidate hmem
  rw [h.trimWeak]
  simp only [Bool.or_eq_true, decide_eq_true_eq, not_or] at hno
  simp [hno.1.1, hno.2]

/-- A request for the whole of a file. -/
structure Gets (req : Request) : Prop where
  get : req.method = .get
  whole : req.range = []

theorem serveTagged_eq (hreq : Gets req) (htag : p.TagOf contents header.etag) :
    p.serveTagged req name header body =
      if matchesETag req.ifNoneMatch header.etag then { header with status := 304 }
      else { header with
        contentType := p.typeByExtension name
        contentLength := if header.contentEncoding = [] then some body.length else none
        body := body } := by
  unfold serveTagged
  cases hmatches : matchesETag req.ifNoneMatch header.etag with
  | true => rw [if_pos rfl, if_pos rfl]
  | false =>
    have hnone : checkIfNoneMatch req.ifNoneMatch header.etag = false :=
      htag.checkIfNoneMatch hmatches
    have hhead : req.method ≠ .head := by
      rw [hreq.get]
      decide
    unfold serveContent
    rw [hnone, if_neg Bool.false_ne_true, if_neg Bool.false_ne_true, if_neg Bool.false_ne_true,
      if_neg (not_not_intro hreq.whole), if_neg hhead]

theorem etag_withGzip (gzip : Gzip) (r : Response) : (withGzip gzip req r).etag = r.etag := by
  unfold withGzip
  split_ifs <;> rfl

theorem status_withGzip (gzip : Gzip) (r : Response) : (withGzip gzip req r).status = r.status := by
  unfold withGzip
  split_ifs <;> rfl

/-- An answer to a request for a file: the client's own copy will do, or here
are its contents. -/
def Answers (p : Platform) (req : Request) (contents : Bytes) (r : Response) : Prop :=
  p.TagOf contents r.etag ∧
    (r.status = 304 ∧ matchesETag req.ifNoneMatch r.etag = true ∨
      r.status = 200 ∧ r.content p.gzip = some contents)

/-- Either variant, whatever the middleware makes of it. -/
theorem answers_tagged (hreq : Gets req) (htag : p.TagOf contents header.etag)
    (hstatus : header.status = 200)
    (hencoded : ({ header with body := body } : Response).WellEncoded p.gzip)
    (hcontent : ({ header with body := body } : Response).content p.gzip = some contents) :
    p.Answers req contents (withGzip p.gzip req (p.serveTagged req name header body)) := by
  unfold Answers
  rw [etag_withGzip, status_withGzip, serveTagged_eq hreq htag]
  cases hmatches : matchesETag req.ifNoneMatch header.etag with
  | true =>
    rw [if_pos rfl]
    exact ⟨htag, Or.inl ⟨rfl, hmatches⟩⟩
  | false =>
    rw [if_neg Bool.false_ne_true]
    refine ⟨htag, Or.inr ⟨hstatus, ?_⟩⟩
    rw [content_withGzip]
    · exact hcontent
    · exact hencoded
    · show bodyAllowed header.status = true
      rw [hstatus]
      rfl
    · -- a response that is not encoded declares its length
      by_cases hplain : header.contentEncoding = []
      · right
        right
        show (if header.contentEncoding = [] then some body.length else none) ≠ none
        rw [if_pos hplain]
        exact Option.some_ne_none _
      · exact Or.inl hplain

theorem answers_identity (hreq : Gets req) (cacheControl : String) :
    p.Answers req contents (withGzip p.gzip req (p.serveTagged req name
      { blank with etag := p.etag contents, cacheControl := cacheControl.toList } contents)) :=
  answers_tagged hreq (Or.inl rfl) rfl (fun hne => absurd rfl hne) rfl

theorem answers_precompressed (hreq : Gets req) {cacheControl : String} {r : Response}
    (h : p.servePrecompressed req name contents cacheControl = some r) :
    p.Answers req contents (withGzip p.gzip req r) := by
  unfold servePrecompressed gzipBytes at h
  by_cases hsmall : (p.compress contents).length < contents.length
  · rw [if_pos hsmall] at h
    dsimp only at h
    split_ifs at h
    obtain rfl := Option.some.inj h
    have hmembers : p.gzip.Members (p.compress contents) contents := Gzip.members_compress ..
    exact answers_tagged hreq (Or.inr rfl) rfl (fun _ => ⟨rfl, contents, hmembers⟩)
      (content_of_members rfl hmembers)
  · rw [if_neg hsmall] at h
    cases h

/-- **A file is served as it is**, whatever the client accepts and has. -/
theorem answers_respond (hreq : Gets req) (hasset : site.asset req.path = some contents) :
    p.Answers req contents (p.respond site req) := by
  obtain ⟨name, hname, hcontents⟩ := Option.bind_eq_some_iff.mp hasset
  have hget : req.method ≠ .other := by
    rw [hreq.get]
    decide
  have hhead : req.method ≠ .head := by
    rw [hreq.get]
    decide
  unfold respond staticFileHandler
  rw [hname]
  dsimp only
  rw [hcontents, if_neg hhead]
  dsimp only
  unfold serveAsset
  rw [if_neg hget]
  generalize (if isHTML name then "no-cache" else "public, max-age=0, must-revalidate") = control
  cases hprecompressed : p.servePrecompressed req name contents control with
  | none => exact answers_identity hreq control
  | some r => exact answers_precompressed hreq hprecompressed

end Platform

/-! ## Clients that cache -/

/-- The site as it is deployed, and what a client keeps for each path. -/
structure Browsing where
  site : Site
  stored : List Char → List Response

namespace Browsing

open Platform

def start (site : Site) : Browsing := ⟨site, fun _ => []⟩

variable (p : Platform) (s : Browsing)

/-- What the client uses for a request: the answer, or what it keeps under the
answer's tag. -/
def shown (req : Request) : Option Response :=
  let response := p.respond s.site req
  if response.status = 304 then
    (s.stored req.path).find? fun old => old.etag = response.etag
  else some response

/-- A response with a tag takes the place of the one it replaces. -/
def keep (path : List Char) (response : Response) : Browsing :=
  if response.status = 200 ∧ response.etag ≠ [] then
    let others := (s.stored path).filter fun old => old.etag ≠ response.etag
    { s with stored := Function.update s.stored path (response :: others) }
  else s

/-- A request for the whole of a file, with tags of what is kept. -/
def Revalidates (req : Request) : Prop :=
  req.method = .get ∧ req.range = [] ∧
    ∀ candidate ∈ req.ifNoneMatch, candidate ∈ (s.stored req.path).map (·.etag)

instance (req : Request) : Decidable (s.Revalidates req) := by
  unfold Revalidates
  infer_instance

inductive Label
  | deploy (site : Site)
  | fetch (req : Request)
  | forget (path etag : List Char)

def step : Label → Option Browsing
  | .deploy site => some { s with site := site }
  | .fetch req =>
    if s.Revalidates req then some (s.keep req.path (p.respond s.site req)) else none
  | .forget path etag =>
    let others := (s.stored path).filter fun old => old.etag ≠ etag
    some { s with stored := Function.update s.stored path others }

def lts (site : Site) : Lts Browsing Label := Lts.ofStep (start site) (step p)

/-- Only these sites are deployed. -/
def Deploys (sites : Set Site) (_ : Browsing) (l : Label) : Prop :=
  ∀ site, l = .deploy site → site ∈ sites

/-- A file of one of the sites. -/
def Published (sites : Set Site) (contents : Bytes) : Prop :=
  ∃ site ∈ sites, ∃ path, site.asset path = some contents

/-- No two representations of the sites' files have one digest. -/
def NoCollision (sites : Set Site) : Prop :=
  ∀ a b, Published sites a → Published sites b →
    (p.sha256 a = p.sha256 b → a = b) ∧
      (p.sha256 (p.compress a) = p.sha256 (p.compress b) → p.compress a = p.compress b)

variable {p} {s} {t : Browsing} {sites : Set Site} {a b : Bytes} {etag path : List Char}
  {req : Request} {response : Response}

theorem digest_ext {d d' : Digest} (h : d.text = d'.text) : d = d' := by
  cases d
  cases d'
  cases h
  rfl

/-- The tag of an identity representation is no compressed one's. -/
theorem etag_ne_compressedEtag : p.etag a ≠ p.compressedEtag b := by
  intro h
  have hdash : '-' ∈ p.etag a := by
    rw [h]
    unfold compressedEtag
    rw [List.mem_append]
    exact Or.inr (by decide)
  unfold Platform.etag at hdash
  rw [List.mem_append, List.mem_append] at hdash
  rcases hdash with (hquote | hdigit) | hquote
  · revert hquote
    decide
  · have hhex := (p.sha256 a).hex _ hdigit
    revert hhex
    decide
  · revert hquote
    decide

/-- **A tag has one content**, over all the sites. -/
theorem tagOf_unique (hsites : NoCollision p sites) (ha : Published sites a)
    (hb : Published sites b) (htag : p.TagOf a etag) (htag' : p.TagOf b etag) : a = b := by
  obtain ⟨hidentity, hcompressed⟩ := hsites a b ha hb
  rcases htag with rfl | rfl
  · rcases htag' with hsame | hsame
    · apply hidentity
      unfold Platform.etag at hsame
      exact digest_ext (List.append_cancel_left (List.append_cancel_right hsame))
    · exact absurd hsame etag_ne_compressedEtag
  · rcases htag' with hsame | hsame
    · exact absurd hsame.symm etag_ne_compressedEtag
    · unfold compressedEtag at hsame
      have hdigests : p.sha256 (p.compress a) = p.sha256 (p.compress b) :=
        digest_ext (List.append_cancel_left (List.append_cancel_right hsame))
      exact Gzip.compress_injective .bestCompression (hcompressed hdigests)

/-- What is kept is some site's file, under a tag of it. -/
structure Coherent (p : Platform) (sites : Set Site) (s : Browsing) : Prop where
  site : s.site ∈ sites
  stored : ∀ path, ∀ response ∈ s.stored path, ∃ contents, Published sites contents ∧
    p.TagOf contents response.etag ∧ response.content p.gzip = some contents

theorem coherent_start {site : Site} (hsite : site ∈ sites) : Coherent p sites (start site) where
  site := hsite
  stored _ _ h := by cases h

/-- What is answered with a tag is a file of the site. -/
theorem published_respond (hreq : Gets req) (hsite : s.site ∈ sites)
    (hstatus : (p.respond s.site req).status = 200) (hetag : (p.respond s.site req).etag ≠ []) :
    ∃ contents, Published sites contents ∧ p.TagOf contents (p.respond s.site req).etag ∧
      (p.respond s.site req).content p.gzip = some contents := by
  cases hasset : s.site.asset req.path with
  | some contents =>
    obtain ⟨htag, ⟨hnot, -⟩ | ⟨-, hcontent⟩⟩ := answers_respond hreq hasset (p := p)
    · rw [hnot] at hstatus
      cases hstatus
    · exact ⟨contents, ⟨s.site, hsite, req.path, hasset⟩, htag, hcontent⟩
  | none =>
    -- without a file there is no tag
    refine absurd ?_ hetag
    have hhead : req.method ≠ .head := by
      rw [hreq.get]
      decide
    unfold respond
    rw [if_neg hhead, etag_withGzip]
    unfold staticFileHandler
    cases hname : Site.assetName req.path with
    | none => exact p.notFound_etag req
    | some name =>
      have hcontents : s.site.contents name = none := by
        unfold Site.asset at hasset
        rw [hname] at hasset
        exact hasset
      dsimp only
      rw [hcontents]
      exact p.notFound_etag req

theorem Coherent.update (h : Coherent p sites s) {kept : List Response}
    (hkept : ∀ response ∈ kept, response ∈ s.stored path ∨ ∃ contents,
      Published sites contents ∧ p.TagOf contents response.etag ∧
        response.content p.gzip = some contents) :
    Coherent p sites { s with stored := Function.update s.stored path kept } := by
  refine ⟨h.site, ?_⟩
  intro other response hmem
  have hmem' : response ∈ Function.update s.stored path kept other := hmem
  rw [Function.update_apply] at hmem'
  split_ifs at hmem'
  · exact (hkept response hmem').elim (h.stored path response) id
  · exact h.stored other response hmem'

theorem Coherent.step (h : Coherent p sites s) {l : Label} (hdeploys : Deploys sites s l)
    (hstep : s.step p l = some t) : Coherent p sites t := by
  cases l with
  | deploy site =>
    cases hstep
    exact ⟨hdeploys site rfl, h.stored⟩
  | fetch req =>
    unfold Browsing.step at hstep
    dsimp only at hstep
    split_ifs at hstep with hrequest
    cases hstep
    unfold keep
    split_ifs with htagged
    · apply h.update
      intro response hmem
      rcases List.mem_cons.mp hmem with rfl | hmem
      · exact Or.inr (published_respond ⟨hrequest.1, hrequest.2.1⟩ h.site htagged.1 htagged.2)
      · exact Or.inl (List.mem_of_mem_filter hmem)
    · exact h
  | forget path etag =>
    cases hstep
    exact h.update fun response hmem => Or.inl (List.mem_of_mem_filter hmem)

theorem coherent_of_reachable {site : Site} (hsite : site ∈ sites)
    (hr : (lts p site).Reachable (Deploys sites) s) : Coherent p sites s :=
  hr.invariant_ofStep (coherent_start hsite) fun _ _ _ h hdeploys hstep => h.step hdeploys hstep

/-- A tag that the server finds is one that is kept. -/
theorem Coherent.mem_of_matches (h : Coherent p sites s) (hrequest : s.Revalidates req)
    (hmatches : matchesETag req.ifNoneMatch etag = true) :
    ∃ old ∈ s.stored req.path, old.etag = etag := by
  unfold matchesETag at hmatches
  rw [List.any_eq_true] at hmatches
  obtain ⟨candidate, hmem, hmatch⟩ := hmatches
  obtain ⟨old, hold, rfl⟩ := List.mem_map.mp (hrequest.2.2 candidate hmem)
  obtain ⟨contents, -, htagged, -⟩ := h.stored req.path old hold
  simp only [Bool.or_eq_true, decide_eq_true_eq] at hmatch
  rcases hmatch with (hstar | hsame) | hsame
  · obtain ⟨rest, hquoted⟩ := htagged.quoted
    rw [hquoted] at hstar
    cases hstar
  · exact ⟨old, hold, hsame⟩
  · rw [htagged.trimWeak] at hsame
    exact ⟨old, hold, hsame⟩

/-- **A client that revalidates shows the current file**, over every sequence
of deployments and requests: the answer reads as the file the site has now, or
there is a kept response under its tag, and that reads so. -/
theorem shown_current {site : Site} (hsites : NoCollision p sites) (hsite : site ∈ sites)
    (hr : (lts p site).Reachable (Deploys sites) s) (hrequest : s.Revalidates req)
    (hasset : s.site.asset req.path = some a) :
    ∃ response, s.shown p req = some response ∧ response.content p.gzip = some a := by
  have h := coherent_of_reachable hsite hr
  have hreq : Gets req := ⟨hrequest.1, hrequest.2.1⟩
  obtain ⟨htag, ⟨hnot, hmatches⟩ | ⟨hok, hcontent⟩⟩ := answers_respond hreq hasset (p := p)
  · obtain ⟨old, hold, hetag⟩ := h.mem_of_matches hrequest hmatches
    have hfound : s.shown p req =
        (s.stored req.path).find? fun old => old.etag = (p.respond s.site req).etag := if_pos hnot
    cases hshown : s.shown p req with
    | none =>
      rw [hfound, List.find?_eq_none] at hshown
      exact absurd hetag (by simpa using hshown old hold)
    | some response =>
      refine ⟨response, rfl, ?_⟩
      rw [hfound] at hshown
      have hsame : response.etag = (p.respond s.site req).etag := by
        simpa using List.find?_some hshown
      obtain ⟨b, hb, htag', hcontent⟩ :=
        h.stored req.path response (List.mem_of_find?_eq_some hshown)
      rw [hsame] at htag'
      have hcurrent : Published sites a := ⟨s.site, h.site, req.path, hasset⟩
      rw [hcontent, tagOf_unique hsites hb hcurrent htag' htag]
  · refine ⟨p.respond s.site req, if_neg ?_, hcontent⟩
    rw [hok]
    decide

/-! ### A script that is replaced -/

def digit (byte : UInt8) : Char :=
  "0123456789abcdef".toList.getD (byte.toNat % 16) '0'

theorem digit_mem (byte : UInt8) : digit byte ∈ "0123456789abcdef".toList := by
  have hlt : byte.toNat % 16 < "0123456789abcdef".toList.length := Nat.mod_lt _ (by decide)
  unfold digit
  rw [List.getD_eq_getElem _ _ hlt]
  exact List.getElem_mem _

theorem hex_of_all {text : List Char}
    (h : text.all (fun char => decide (char ∈ "0123456789abcdef".toList)) = true) :
    ∀ char ∈ text, char ∈ "0123456789abcdef".toList :=
  fun char hchar => of_decide_eq_true (List.all_eq_true.mp h char hchar)

/-- SHA-256 of the two scripts; of anything else the low half of each byte. -/
def sampleDigest (data : Bytes) : Digest :=
  if data = Site.ascii "hi" then
    ⟨"8f434346648f6b96df89dda901c5176b10a6d83961dd3c1ac88b59b2dc327aa4".toList,
      hex_of_all (by decide)⟩
  else if data = Site.ascii "yo" then
    ⟨"e9058ab198f6908f702111b0c0fb5b36f99d00554521886c40e2891b349dc7a1".toList,
      hex_of_all (by decide)⟩
  else ⟨data.map digit, fun char hchar => by
    obtain ⟨byte, -, rfl⟩ := List.mem_map.mp hchar
    exact digit_mem byte⟩

def samplePlatform : Platform where
  gzip := .framed
  sha256 := sampleDigest
  typeByExtension _ := "text/javascript; charset=utf-8".toList
  serveRange _ header _ := header
  notFound _ := blank
  notFound_etag _ := rfl

def sampleSite (script : String) : Site := ⟨[("app.js".toList, Site.ascii script)], []⟩

theorem published_sample {contents : Bytes}
    (h : Published {sampleSite "hi", sampleSite "yo"} contents) :
    contents = Site.ascii "hi" ∨ contents = Site.ascii "yo" := by
  have hscript : ∀ script name, (sampleSite script).contents name = some contents →
      contents = Site.ascii script := by
    intro script name hname
    by_cases hfile : name = "app.js".toList
    · have hplain : Site.isHTML name = false := by
        rw [hfile]
        decide
      have hlookup : (sampleSite script).files.lookup name = some (Site.ascii script) := by
        rw [hfile]
        exact List.lookup_cons_self
      unfold Site.contents at hname
      rw [hlookup, Option.map_some, hplain, if_neg Bool.false_ne_true] at hname
      exact (Option.some.inj hname).symm
    · have hlookup : (sampleSite script).files.lookup name = none := by
        show (List.lookup name [("app.js".toList, Site.ascii script)]) = none
        rw [List.lookup_cons, beq_false_of_ne hfile]
        rfl
      unfold Site.contents at hname
      rw [hlookup] at hname
      cases hname
  obtain ⟨site, rfl | rfl, path, hasset⟩ := h
  · obtain ⟨name, -, hname⟩ := Option.bind_eq_some_iff.mp hasset
    exact Or.inl (hscript _ name hname)
  · obtain ⟨name, -, hname⟩ := Option.bind_eq_some_iff.mp hasset
    exact Or.inr (hscript _ name hname)

theorem noCollision_sample : NoCollision samplePlatform {sampleSite "hi", sampleSite "yo"} := by
  have hidentity : (samplePlatform.sha256 (Site.ascii "hi")).text ≠
      (samplePlatform.sha256 (Site.ascii "yo")).text := by decide
  have hcompressed : (samplePlatform.sha256 (samplePlatform.compress (Site.ascii "hi"))).text ≠
      (samplePlatform.sha256 (samplePlatform.compress (Site.ascii "yo"))).text := by decide
  intro a b ha hb
  rcases published_sample ha with rfl | rfl
  · rcases published_sample hb with rfl | rfl
    · exact ⟨fun _ => rfl, fun _ => rfl⟩
    · exact ⟨fun h => absurd (congrArg Digest.text h) hidentity,
        fun h => absurd (congrArg Digest.text h) hcompressed⟩
  · rcases published_sample hb with rfl | rfl
    · exact ⟨fun h => absurd (congrArg Digest.text h).symm hidentity,
        fun h => absurd (congrArg Digest.text h).symm hcompressed⟩
    · exact ⟨fun _ => rfl, fun _ => rfl⟩

def sampleRequest (candidates : List (List Char)) : Request where
  method := .get
  path := "/app.js".toList
  acceptEncoding := "gzip".toList
  upgrade := []
  range := []
  ifNoneMatch := candidates

/-- The client has the first script and asks for it again after the second
one is deployed. -/
theorem shown_current_replaced : ∃ (s : Browsing) (req : Request) (response : Response),
    req.ifNoneMatch ≠ [] ∧ s.shown samplePlatform req = some response ∧
      response.content .framed = some (Site.ascii "yo") := by
  let tag := samplePlatform.etag (Site.ascii "hi")
  have hdeploys : ∀ l ∈ [Label.fetch (sampleRequest []), .deploy (sampleSite "yo")],
      ∀ s, Deploys {sampleSite "hi", sampleSite "yo"} s l := by
    intro l hl s site hsite
    rw [hsite] at hl
    simp only [List.mem_cons, reduceCtorEq, Label.deploy.injEq, List.not_mem_nil, or_false,
      false_or] at hl
    exact Or.inr hl
  obtain ⟨s, hr, ho⟩ := Lts.exists_reachable_of_exec (Deploys {sampleSite "hi", sampleSite "yo"})
    (step samplePlatform) (start (sampleSite "hi"))
    [.fetch (sampleRequest []), .deploy (sampleSite "yo")]
    (fun s => decide (s.Revalidates (sampleRequest [tag]) ∧
      s.site.asset "/app.js".toList = some (Site.ascii "yo"))) true
    hdeploys (by decide +kernel)
  obtain ⟨hrequest, hasset⟩ := of_decide_eq_true ho
  obtain ⟨response, hshown, hcontent⟩ :=
    shown_current noCollision_sample (Or.inl rfl) hr hrequest hasset
  exact ⟨s, sampleRequest [tag], response, List.cons_ne_nil _ _, hshown, hcontent⟩

end Browsing

end SlowMeet.Http
