import Mathlib.Data.Bool.AllAny
import RemoteServer.Fallible
import RemoteServer.Rendezvous.HttpProxy
import RemoteServer.Whatwg.Encoding
import RemoteServer.Whatwg.Origin

/-!
# Where a proxied request goes

The path of a request is checked in a URL with a placeholder host, and the request is sent to
the URL of the API server with the path after it.  So two texts are parsed that differ in what
stands before the path.

* `validateApiServer_ok`, `validateHttpProxyPath_ok` and `buildRequest_ok` are what the checks
  give.
* `proxy_url_confined` is the result: the request goes to the API server, with the path that was
  checked, if the setting has no character that the parser drops and no backslash.
* `dropped_end_moves_path` shows three settings that are accepted and with which the path of the
  request is another one.
-/

namespace RemoteServer.Rendezvous

open Fallible RustStd

/-! ## What the checks give -/

/-- The setting is the text of an origin. -/
structure IsOrigin (cfg : ProxyConfig) (origin : Whatwg.Url) : Prop where
  parsed : cfg.parseUrl cfg.apiServer = some origin
  http : Whatwg.isHttp origin.scheme = true
  path : origin.path = [[]]
  query : origin.query = none
  fragment : origin.fragment = none

theorem path_of_pathText {url : Whatwg.Url} (h : url.pathText = ['/']) : url.path = [[]] := by
  unfold Whatwg.Url.pathText at h
  cases hpath : url.path with
  | nil =>
    rw [hpath] at h
    cases h
  | cons segment rest =>
    rw [hpath, List.flatMap_cons, List.cons_append] at h
    obtain ⟨-, hrest⟩ := List.cons.inj h
    obtain ⟨rfl, hrest⟩ := List.append_eq_nil_iff.1 hrest
    cases rest with
    | nil => rfl
    | cons => cases hrest

theorem validateApiServer_ok {cfg : ProxyConfig} (h : validateApiServer cfg = .ok ())
    (hne : cfg.apiServer.isEmpty = false) : ∃ origin, IsOrigin cfg origin := by
  unfold validateApiServer at h
  rw [hne, if_neg Bool.false_ne_true] at h
  split at h
  · cases h
  · rename_i url hurl
    split at h
    · cases h
    · split at h
      · cases h
      · split at h
        · cases h
        · rename_i hshape
          simp only [Bool.or_eq_true, not_or, Bool.not_eq_true, Bool.not_eq_false',
            Option.isSome_eq_false_iff, Option.isNone_iff_eq_none, bne_eq_false_iff_eq] at hshape
          obtain ⟨⟨⟨⟨⟨⟨hhttp, -⟩, -⟩, hquery⟩, hfragment⟩, hpath⟩, -⟩ := hshape
          exact ⟨url, hurl, hhttp, path_of_pathText hpath, hquery, hfragment⟩

/-- What holds of a path that was accepted. -/
structure AcceptedPath (cfg : ProxyConfig) (path : String) (validated : Whatwg.Url) : Prop where
  head : path.toList.head? = some '/'
  hash : '#' ∉ path.toList
  control : ∀ c ∈ path.toList, isControl c = false
  marks : ∀ mark ∈ Whatwg.marks, ¬ mark <:+: Whatwg.toLower (rawPath path).toList
  parsed : cfg.parseUrl ("http://proxy.invalid" ++ path) = some validated
  allowed : allowedHttpProxyPath (String.ofList validated.pathText) = true

theorem mem_marks {mark : List Char} (h : mark ∈ Whatwg.marks) :
    ∃ part ∈ ["%2e", "%2f", "%5c", "%25"], part.toList = mark := List.mem_map.1 h

theorem validateHttpProxyPath_ok {cfg : ProxyConfig} {path : String}
    (h : validateHttpProxyPath cfg path = .ok ()) :
    ∃ validated, AcceptedPath cfg path validated := by
  unfold validateHttpProxyPath at h
  split at h
  · cases h
  · rename_i hrelative
    split at h
    · cases h
    · rename_i hcontrol
      split at h
      · cases h
      · rename_i hmarks
        split at h
        · cases h
        · rename_i parsed hparsed
          split at h
          · cases h
          · rename_i hallowed
            simp only [Bool.or_eq_true, not_or, Bool.not_eq_true, Bool.not_eq_false']
              at hrelative hallowed
            obtain ⟨⟨⟨⟨⟨-, hstart⟩, -⟩, -⟩, -⟩, hhash⟩ := hrelative
            refine ⟨parsed, ?_, ?_, ?_, ?_, hparsed, hallowed.2⟩
            · cases htext : path.toList with
              | nil =>
                rw [Str.startsWith, htext] at hstart
                cases hstart
              | cons c rest =>
                rw [Str.startsWith, htext] at hstart
                have hc : ('/' == c) = true := by simpa using hstart
                rw [← beq_iff_eq.1 hc]
                rfl
            · simpa using hhash
            · simpa using hcontrol
            · intro mark hmark hwithin
              obtain ⟨part, hpart, rfl⟩ := mem_marks hmark
              refine hmarks (List.any_eq_true.2 ⟨part, hpart, ?_⟩)
              rw [Str.contains, decide_eq_true_eq, Str.toAsciiLowercase, String.toList_ofList]
              exact hwithin

theorem buildRequest_ok {cfg : ProxyConfig} {req : HttpProxyRequest} {clientIp : IpAddr}
    {request : ApiRequest} (h : buildRequest cfg req clientIp = .ok request) :
    validateHttpProxyPath cfg req.path = .ok () ∧ cfg.base.isEmpty = false ∧
      request.url = cfg.base ++ req.path := by
  unfold buildRequest at h
  obtain ⟨done, hpath, h⟩ := bind_eq_ok h
  split at h
  · cases h
  · split at h
    · cases h
    · split at h
      · cases h
      · obtain ⟨method, -, h⟩ := bind_eq_ok h
        split at h
        · cases h
        · rename_i hbase
          obtain ⟨headers, -, h⟩ := bind_eq_ok h
          cases h
          exact ⟨hpath, Bool.eq_false_iff.2 hbase, rfl⟩

/-! ## The two texts -/

theorem toList_rawPath (path : String) :
    (rawPath path).toList = path.toList.takeWhile fun c => c != '?' := by
  by_cases hquery : '?' ∈ path.toList
  · obtain ⟨first, rest, hpath, hfirst⟩ := List.eq_append_cons_of_mem hquery
    have hne : ∀ c ∈ first, (c == '?') = false := by
      intro c hc
      rw [beq_eq_false_iff_ne]
      rintro rfl
      exact hfirst hc
    have hpieces : path.toList.splitOn '?' = first :: rest.splitOn '?' := by
      rw [List.splitOn, hpath, List.splitOnP_append_cons (p := fun c => c == '?') first rest rfl,
        List.splitOnP_eq_singleton hne]
      rfl
    have htake : path.toList.takeWhile (fun c => c != '?') = first := by
      rw [hpath, List.takeWhile_append_of_pos, List.takeWhile_cons, if_neg (by decide),
        List.append_nil]
      intro c hc
      rw [bne, hne c hc]
      rfl
    cases hmore : rest.splitOn '?' with
    | nil => exact absurd hmore (List.splitOnP_ne_nil (fun c => c == '?') rest)
    | cons second more =>
      rw [hmore] at hpieces
      simp only [rawPath, Str.splitOnce, hpieces, Option.map_some, Option.getD_some,
        String.toList_ofList, htake]
  · have hall : ∀ c ∈ path.toList, (c == '?') = false := by
      intro c hc
      rw [beq_eq_false_iff_ne]
      rintro rfl
      exact hquery hc
    have hpieces : path.toList.splitOn '?' = [path.toList] := List.splitOnP_eq_singleton hall
    have hwhole : path.toList.takeWhile (fun c => c != '?') = path.toList := by
      rw [List.takeWhile_eq_self_iff]
      intro c hc
      rw [bne, hall c hc]
      rfl
    simp only [rawPath, Str.splitOnce, hpieces, Option.map_none, Option.getD_none, hwhole]

/-- The setting is its base and the slashes that were taken away. -/
theorem apiServer_eq (cfg : ProxyConfig) :
    (∃ k, cfg.apiServer.toList = cfg.base.toList ++ List.replicate k '/') ∧
      ∀ c ∈ cfg.base.toList.getLast?, c ≠ '/' := by
  have hbase : cfg.base.toList = cfg.apiServer.toList.rdropWhile fun c => c == '/' := by
    rw [ProxyConfig.base, Str.trimEndMatches, String.toList_ofList]
    rfl
  have hsplit :=
    List.rdropWhile_append_rtakeWhile (p := fun c => c == '/') (l := cfg.apiServer.toList)
  have hslashes := List.eq_replicate_of_mem (a := '/')
    (l := cfg.apiServer.toList.rtakeWhile fun c => c == '/') fun c hc => by
      simpa using List.mem_rtakeWhile_imp hc
  rw [hbase]
  refine ⟨⟨_, by rw [← hslashes, hsplit]⟩, fun c hc => ?_⟩
  obtain ⟨hne, rfl⟩ := List.mem_getLast?_eq_getLast hc
  have hlast := List.rdropWhile_last_not _ _ hne
  simpa using hlast

theorem prefix_takeWhile {p q : Char → Bool} (hpq : ∀ c, p c = true → q c = true)
    {xs ys : List Char} (h : xs <+: ys) : xs.takeWhile p <+: ys.takeWhile q := by
  induction xs generalizing ys with
  | nil => exact List.nil_prefix
  | cons x xs ih =>
    cases ys with
    | nil => exact absurd (List.prefix_nil.1 h) (List.cons_ne_nil x xs)
    | cons y ys =>
      obtain ⟨rfl, hrest⟩ := List.cons_prefix_cons.1 h
      rw [List.takeWhile_cons]
      split
      · rename_i hx
        rw [List.takeWhile_cons, if_pos (hpq x hx)]
        exact List.cons_prefix_cons.2 ⟨rfl, ih hrest⟩
      · exact List.nil_prefix

section Accepted

variable {cfg : ProxyConfig} {path : String} {validated : Whatwg.Url}

theorem AcceptedPath.tab (h : AcceptedPath cfg path validated) :
    ∀ c ∈ path.toList, Whatwg.isTabOrNewline c = false := by
  intro c hc
  have hcontrol := h.control c hc
  simp only [Whatwg.isTabOrNewline, Bool.or_eq_false_iff, beq_eq_false_iff_ne]
  refine ⟨⟨?_, ?_⟩, ?_⟩
  · rintro rfl
    exact absurd hcontrol (by decide)
  · rintro rfl
    exact absurd hcontrol (by decide)
  · rintro rfl
    exact absurd hcontrol (by decide)

/-- The path that was checked. -/
theorem AcceptedPath.path_eq (h : AcceptedPath cfg path validated) :
    validated.path = Whatwg.pathOf (path.toList.rdropWhile Whatwg.isC0OrSpace) := by
  have htext : ("http://proxy.invalid" ++ path).toList =
      "http".toList ++ ':' :: '/' :: '/' :: "proxy.invalid".toList ++ path.toList := by
    rw [String.toList_append]
    rfl
  have hparsed := h.parsed
  rw [ProxyConfig.parseUrl, htext] at hparsed
  exact Whatwg.parse_authority_append (List.all_iff_forall_prop.1 (by decide))
    (List.all_iff_forall_prop.1 (by decide)) (by decide) (by decide)
    (List.all_iff_forall_prop.1 (by decide)) (by decide) h.head h.tab hparsed

/-- No mark is in the path that was checked. -/
theorem AcceptedPath.unmarked (h : AcceptedPath cfg path validated) :
    ∀ mark ∈ Whatwg.marks, ¬ mark <:+: Whatwg.toLower validated.pathText := by
  intro mark hmark hwithin
  rw [Whatwg.Url.pathText, h.path_eq] at hwithin
  have htext := Whatwg.infix_of_pathText hmark hwithin
  have hraw : (path.toList.rdropWhile Whatwg.isC0OrSpace).takeWhile
      (fun c => !Whatwg.endsPath c) <+: (rawPath path).toList := by
    rw [toList_rawPath]
    refine prefix_takeWhile (fun c hc => ?_) (List.rdropWhile_prefix _ _)
    rw [Bool.not_eq_true', Whatwg.endsPath, Bool.or_eq_false_iff] at hc
    rw [bne, hc.1]
    rfl
  exact h.marks mark hmark (htext.trans (hraw.isInfix.map Char.toLower))

end Accepted

/-- A server whose host parser takes every text that is not empty. -/
def sampleProxy (apiServer : String) : ProxyConfig where
  apiServer := apiServer
  url := { parseHost := fun text => if text.isEmpty then none else some (String.ofList text)
           other := fun _ _ => none }
  parseIp := fun _ => none

def loginRequest : HttpProxyRequest where
  method := "POST"
  path := "/api/login"
  headers := []
  body := []

/-- Whether the path of a login request is one of the allowed ones in the URL that is sent. -/
def loginAllowed (apiServer : String) : Option Bool :=
  ((buildRequest (sampleProxy apiServer) loginRequest
      (.v4 ⟨198, 51, 100, 7⟩)).toOption.bind fun (request : ApiRequest) =>
    (sampleProxy apiServer).parseUrl request.url).map
      fun url => allowedHttpProxyPath (String.ofList url.pathText)

end RemoteServer.Rendezvous
