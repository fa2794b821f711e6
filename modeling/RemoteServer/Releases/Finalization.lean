import RemoteServer.Releases.Registries

/-!
# What is frozen can be finalized

`freeze` accepts a document before the image is pushed, and `finalize` checks the evidence after it.
The two checks read the same fields in different ways.

* `Settled` are the documents of which the second check wants no more than the first: every
  dependency has texts, one of three relations and evidence, the time is in UTC, and the digests of
  the platforms differ.
* One lemma for each part of the evidence says that what `validateFrozen` accepted is accepted
  again.
* `frozen_evidence_finalizes` puts them together.  A frozen document that is not settled is refused
  after the image was pushed: `unsettled_evidence_refused`.
-/

namespace RemoteServer.Releases.Builder

open Fallible PyStd Validator

/-- The items of an array. -/
def itemsOf : Json → List Json
  | .arr items => items
  | _ => []

/-- The text of a value. -/
def textOf (value : Json) : String := value.text?.getD ""

/-- A dependency with the types that the evidence has. -/
structure SettledDependency (fields : Fields) : Prop where
  repository : ∃ s, get fields "repository" = .str s
  commit : ∃ s, get fields "commit" = .str s
  version : get fields "version" = .null ∨ ∃ s, get fields "version" = .str s
  relation : ∃ s ∈ relations, get fields "relation" = .str s
  evidence : ∃ s, get fields "evidence" = .str s ∧ s ≠ ""

/-- A time in UTC, with a `Z` at its end. -/
def IsUtc (py : Python) (value : Json) : Prop :=
  ∃ time day, value = .str (time ++ "Z") ∧ py.datetime (time ++ "+00:00") = some (day, true)

/-- The digest of a platform. -/
def platformDigest (platform : Json) : Json := get (fieldsOf platform) "digest"

/-- What the evidence needs of a frozen document beyond `validateFrozen`. -/
structure Settled (py : Python) (frozen : Fields) : Prop where
  dependencies : ∀ item ∈ itemsOf (get frozen "dependencies"), SettledDependency (fieldsOf item)
  generatedAt : IsUtc py (get frozen "generated_at")
  digests : ((itemsOf (get frozen "platforms")).map platformDigest).Nodup

/-- The hashes in a document are texts.  Those of `freeze` are. -/
structure HashTexts (frozen : Fields) : Prop where
  platforms : ∀ item ∈ itemsOf (get frozen "platforms"), ∃ s, platformDigest item = .str s
  sbom : ∃ s, get (fieldsOf (get frozen "sbom")) "sha256" = .str s
  provenance : ∃ s, get (fieldsOf (get frozen "provenance")) "sha256" = .str s

/-! ## Dependencies -/

theorem ne_empty_of_isSha {sha : String} (h : isSha sha = true) : sha ≠ "" := by
  rintro rfl
  exact absurd h (by decide)

section Dependencies

variable {py : Python} {item value : Json}

/-- What identifies a dependency with texts. -/
def identityOf (item : Json) : Identity :=
  let fields := fieldsOf item
  toLex (textOf (get fields "repository"),
    toLex (textOf (get fields "relation"), textOf (get fields "commit")))

/-- What a dependency is accepted for. -/
theorem validateDependency_ok {identity : Json × String × Json}
    (h : Builder.validateDependency py item = .ok identity) :
    ∃ fields, item = .obj fields ∧ hasKeys fields dependencyKeys = true ∧
      isLogicalId (py.str (get fields "repository")) = true ∧
      isSha (py.str (get fields "commit")) = true ∧
      (get fields "version" = .null ∨ isStableSemver (py.str (get fields "version")) = true) ∧
      identity =
        (get fields "repository", py.str (get fields "relation"), get fields "commit") := by
  simp only [Builder.validateDependency, bind_eq_ok_iff, objectWith_eq_ok, ensure_eq_ok] at h
  obtain ⟨fields, ⟨hitem, hkeys⟩, _, hrepository, _, hcommit, _, hversion, h⟩ := h
  have hget : ∀ name ∈ dependencyKeys, ∀ default, getOr fields name default = get fields name :=
    fun name hname => getOr_of_hasKeys hkeys hname
  rw [hget "repository" (by decide)] at hrepository
  rw [hget "commit" (by decide)] at hcommit
  rw [hget "relation" (by decide)] at h
  refine ⟨fields, hitem, hkeys, hrepository, hcommit, ?_, (Except.ok.inj h).symm⟩
  unfold validateVersion at hversion
  split at hversion
  · rename_i hnull
    exact Or.inl hnull
  · exact Or.inr (ensure_eq_ok.1 hversion)

/-- A settled dependency is accepted again. -/
theorem validator_validateDependency (location : String)
    (hsettled : SettledDependency (fieldsOf item)) {identity : Json × String × Json}
    (h : Builder.validateDependency py item = .ok identity) :
    Validator.validateDependency location item = .ok (identityOf item) ∧
      identity = (.str (ofLex (identityOf item)).1, (ofLex (ofLex (identityOf item)).2).1,
        .str (ofLex (ofLex (identityOf item)).2).2) := by
  obtain ⟨fields, rfl, hkeys, hrepository, hcommit, hversion, rfl⟩ := validateDependency_ok h
  obtain ⟨⟨repository, hr⟩, ⟨commit, hc⟩, hv, ⟨relation, hrelation, hl⟩, ⟨evidence, he, hne⟩⟩ :=
    hsettled
  simp only [fieldsOf] at hr hc hv hl he
  have hidentity : identityOf (.obj fields) = toLex (repository, toLex (relation, commit)) := by
    rw [identityOf, fieldsOf, hr, hl, hc]
    rfl
  rw [hr, py.str_str] at hrepository
  rw [hc, py.str_str] at hcommit
  refine ⟨?_, by rw [hidentity, hr, hl, hc, py.str_str]; rfl⟩
  have hoptional : validateOptionalSemver (get fields "version") (location ++ ".version") =
      .ok () := by
    rcases hv with hnull | ⟨version, hv⟩
    · rw [hnull]
      rfl
    · rw [hv, py.str_str] at hversion
      have hsemver := isEvidenceSemver_of_parseSemver (hversion.resolve_left (by simp))
      rw [hv, validateOptionalSemver, validateSemver, matchText_eq_ok.2 ⟨rfl, hsemver⟩]
      · rfl
      · exact fun hnull => (nomatch hnull)
  have hfilled : relation ≠ "" := by
    rintro rfl
    exact absurd hrelation (by decide)
  simp only [Validator.validateDependency, validateLogicalId, bind_eq_ok_iff, objectWith_eq_ok,
    matchText_eq_ok, requireString_eq_ok, ensure_eq_ok]
  exact ⟨fields, ⟨rfl, hkeys⟩, repository, ⟨hr, hrepository⟩, commit,
    ⟨hc, ne_empty_of_isSha hcommit⟩, (), hcommit, (), hoptional, relation, ⟨hl, hfilled⟩, (), hrelation, evidence, ⟨he, hne⟩,
    by rw [hidentity]; rfl⟩

/-- Settled dependencies are accepted again. -/
theorem validator_validateDependencies
    (hsettled : ∀ item ∈ itemsOf value, SettledDependency (fieldsOf item))
    (h : Builder.validateDependencies py value = .ok ()) :
    Validator.validateDependencies value = .ok () := by
  simp only [Builder.validateDependencies, bind_eq_ok_iff, arrayOf_eq_ok, ensure_eq_ok] at h
  obtain ⟨items, rfl, identities, hidentities, hsorted⟩ := h
  have hgiven : ∀ item identity, Builder.validateDependency py item = .ok identity → identity =
      (get (fieldsOf item) "repository", py.str (get (fieldsOf item) "relation"),
        get (fieldsOf item) "commit") := by
    intro item identity hitem
    obtain ⟨fields, rfl, -, -, -, -, hidentity⟩ := validateDependency_ok hitem
    exact hidentity
  obtain ⟨rfl, hall⟩ := mapM_eq_ok hgiven hidentities
  have haccepted : ∀ item ∈ items, ∀ location,
      Validator.validateDependency location item = .ok (identityOf item) :=
    fun item hitem location => (validator_validateDependency location (hsettled item hitem) (hall item hitem)).1
  have htexts : (items.map fun item => (get (fieldsOf item) "repository",
      py.str (get (fieldsOf item) "relation"), get (fieldsOf item) "commit")) =
      (items.map identityOf).map fun identity => (.str (ofLex identity).1,
        (ofLex (ofLex identity).2).1, .str (ofLex (ofLex identity).2).2) := by
    rw [List.map_map]
    exact List.map_congr_left fun item hitem =>
      (validator_validateDependency "" (hsettled item hitem) (hall item hitem)).2
  rw [htexts, py.isSortedSet_texts, decide_eq_true_eq] at hsorted
  simp only [Validator.validateDependencies, bind_eq_ok_iff, arrayOf_eq_ok, ensure_eq_ok]
  exact ⟨items, rfl, items.map identityOf,
    mapM_zipIdx_eq_map fun item hitem index => haccepted item hitem _, hsorted.symm⟩

end Dependencies

/-! ## Images -/

section Platforms

variable {py : Python} {item value : Json}

/-- The architecture of a platform. -/
def architectureOf (item : Json) : String := textOf (get (fieldsOf item) "architecture")

/-- What a platform is accepted for. -/
theorem validatePlatform_ok {architecture : String}
    (h : Builder.validatePlatform py item = .ok architecture) :
    ∃ fields, item = .obj fields ∧ hasKeys fields imagePlatformKeys = true ∧
      get fields "platform" = .str "linux" ∧ get fields "architecture" = .str architecture ∧
      architecture ∈ ["amd64", "arm64"] ∧
      isDigest (py.str (get fields "digest")).toList = true := by
  simp only [Builder.validatePlatform, bind_eq_ok_iff, objectWith_eq_ok, matchText_eq_ok,
    ensure_eq_ok] at h
  obtain ⟨fields, ⟨hitem, hkeys⟩, architecture', ⟨harchitecture, hlisted⟩, _, ⟨hlinux, hdigest⟩,
    h⟩ := h
  obtain rfl := Except.ok.inj h
  rw [getOr_of_hasKeys hkeys (by decide)] at hdigest
  exact ⟨fields, hitem, hkeys, Json.isText_iff.1 hlinux, harchitecture,
    List.contains_iff_mem.1 hlisted, hdigest⟩

/-- A platform whose digest is a text is accepted again. -/
theorem validator_validatePlatform (location : String) {digest : String}
    (hdigest : platformDigest item = .str digest) {architecture : String}
    (h : Builder.validatePlatform py item = .ok architecture) :
    Validator.validatePlatform location item = .ok (architecture, digest) := by
  obtain ⟨fields, rfl, hkeys, hlinux, harchitecture, hlisted, hvalid⟩ := validatePlatform_ok h
  have hdigest : get fields "digest" = .str digest := hdigest
  rw [hdigest, py.str_str] at hvalid
  have hfilled : architecture ≠ "" := by
    rintro rfl
    exact absurd hlisted (by decide)
  simp only [Validator.validatePlatform, validateDigest, bind_eq_ok_iff, objectWith_eq_ok,
    matchText_eq_ok, requireString_eq_ok, ensure_eq_ok]
  exact ⟨fields, ⟨rfl, hkeys⟩, (), Json.isText_iff.2 hlinux, architecture, ⟨harchitecture, hfilled⟩,
    (), hlisted, digest, ⟨hdigest, hvalid⟩, rfl⟩

/-- The digests are the texts of the digests. -/
theorem map_platformDigest {items : List Json}
    (h : ∀ item ∈ items, platformDigest item = .str (textOf (platformDigest item))) :
    items.map platformDigest =
      (items.map fun item => textOf (platformDigest item)).map Json.str := by
  rw [List.map_map]
  exact List.map_congr_left h

/-- Platforms with different digests are accepted again. -/
theorem validator_validatePlatforms (location : String)
    (htexts : ∀ item ∈ itemsOf value, ∃ s, platformDigest item = .str s)
    (hdigests : ((itemsOf value).map platformDigest).Nodup)
    (h : Builder.validatePlatforms py value = .ok ()) :
    Validator.validatePlatforms location value = .ok () := by
  simp only [Builder.validatePlatforms, bind_eq_ok_iff, arrayOf_eq_ok, ensure_eq_ok] at h
  obtain ⟨items, rfl, _, hne, architectures, hloop, hsorted⟩ := h
  have hgiven : ∀ item architecture, Builder.validatePlatform py item = .ok architecture →
      architecture = architectureOf item := by
    intro item architecture hitem
    obtain ⟨fields, rfl, -, -, harchitecture, -, -⟩ := validatePlatform_ok hitem
    rw [architectureOf, fieldsOf, harchitecture]
    rfl
  obtain ⟨rfl, hall⟩ := mapM_eq_ok hgiven hloop
  have htext : ∀ item ∈ items, platformDigest item = .str (textOf (platformDigest item)) := by
    intro item hitem
    obtain ⟨s, hs⟩ := htexts item hitem
    rw [hs]
    rfl
  have hnodup : (items.map fun item => textOf (platformDigest item)).Nodup := by
    have hdigests : (items.map platformDigest).Nodup := hdigests
    rw [map_platformDigest htext] at hdigests
    exact hdigests.of_map _
  simp only [Validator.validatePlatforms, bind_eq_ok_iff, arrayOf_eq_ok, ensure_eq_ok]
  refine ⟨items, rfl, (), hne, items.map fun item => (architectureOf item,
    textOf (platformDigest item)), ?_, (), ?_, ?_⟩
  · exact mapM_zipIdx_eq_map fun item hitem index =>
      validator_validatePlatform _ (htext item hitem) (hall item hitem)
  · rw [List.map_map]
    exact hsorted
  · rw [List.map_map]
    exact hnodup

end Platforms

section Registries

variable {p : Publication} {signer : Signer} {location name image : String}

theorem ne_empty_of_semver {version : String} (h : isStableSemver version = true) :
    version ≠ "" := by
  rintro rfl
  exact absurd h (by decide)

theorem identity_ne_empty (p : Publication) (signer : Signer) : signer.identity p ≠ "" := by
  cases signer with
  | tag => exact append_ne_empty (Or.inl (append_ne_empty (Or.inr (by decide))))
  | main => exact append_ne_empty (Or.inr (by decide))

/-- A version stands before the alias of the commit. -/
theorem version_lt_sha {version : String} (sha : String) (h : isStableSemver version = true) :
    version < "sha-" ++ sha := by
  have hdigit : ∀ c ∈ version.toList, c < 's' := by
    intro c hc
    rcases char_of_parseSemver h c hc with hc | rfl
    · simp only [Char.isDigit, Bool.and_eq_true, decide_eq_true_eq] at hc
      exact lt_of_le_of_lt (show c ≤ '9' from hc.2) (by decide)
    · decide
  have hne : version.toList ≠ [] := fun hnil =>
    ne_empty_of_semver h (String.toList_eq_nil_iff.1 hnil)
  obtain ⟨c, rest, hlist⟩ := List.exists_cons_of_ne_nil hne
  rw [String.lt_iff, String.toList_append, hlist]
  exact List.cons_lt_cons_iff.2 (Or.inl (hdigit c (hlist ▸ List.mem_cons_self)))

theorem ne_empty_of_registry (hname : name ∈ ["dockerhub", "ghcr"]) : name ≠ "" := by
  rintro rfl
  exact absurd hname (by decide)

theorem validateImageSignature_ok {identity evidence : String} (hidentity : identity ≠ "")
    (hevidence : evidence ≠ "") :
    validateImageSignature (.obj (signatureFields identity evidence)) location = .ok () := by
  have hlist : requireSortedUniqueStrings (.arr ([evidence].map Json.str))
      (location ++ ".evidence") false = .ok [evidence] :=
    requireSortedUniqueStrings_eq_ok (List.pairwise_singleton _ evidence)
      (List.forall_mem_singleton.2 hevidence) (Or.inl (List.cons_ne_nil _ _))
  simp only [validateImageSignature, bind_eq_ok_iff, objectWith_eq_ok, requireString_eq_ok,
    ensure_eq_ok]
  exact ⟨_, ⟨rfl, rfl⟩, (), rfl, (), rfl, identity, ⟨rfl, hidentity⟩, _, ⟨rfl, by decide⟩, _, hlist,
    rfl⟩

/-- An image that was pushed under both aliases. -/
theorem validatePublished_ok (himage : image ≠ "") (hrepository : isRepositoryName image = true)
    (hdigest : isDigest p.digest.toList = true) (hversion : isStableSemver p.version = true) :
    validatePublished (publishedFields p name image signer) location p.digest "formal" p.version
      p.sha = .ok () := by
  have haliases : requireSortedUniqueStrings
      (.arr ([p.version, "sha-" ++ p.sha].map Json.str)) (location ++ ".aliases") false =
        .ok [p.version, "sha-" ++ p.sha] := by
    refine requireSortedUniqueStrings_eq_ok ?_ ?_ (Or.inl (List.cons_ne_nil _ _))
    · exact List.pairwise_pair.2 (version_lt_sha p.sha hversion)
    · exact List.forall_mem_cons.2 ⟨ne_empty_of_semver hversion,
        List.forall_mem_singleton.2 (append_ne_empty (Or.inl (by decide)))⟩
  have hsignature : validateImageSignature (.obj (signatureFields (signer.identity p)
      (name ++ "-cosign-verification.json"))) (location ++ ".signature") = .ok () :=
    validateImageSignature_ok (identity_ne_empty p signer) (append_ne_empty (Or.inr (by decide)))
  simp only [validatePublished, validateDigest, bind_eq_ok_iff, matchText_eq_ok,
    requireString_eq_ok, ensure_eq_ok]
  exact ⟨(), trivial, image, ⟨rfl, himage⟩, (), hrepository, p.digest, ⟨rfl, hdigest⟩, (), rfl, _,
    haliases, (), by simp, (), hsignature, rfl⟩

/-- The result of a registry that is used. -/
theorem validateRegistry_published (hname : name ∈ ["dockerhub", "ghcr"]) (himage : image ≠ "")
    (hrepository : isRepositoryName image = true) (hdigest : isDigest p.digest.toList = true)
    (hversion : isStableSemver p.version = true) :
    validateRegistry (publishRegistry p name image signer) location p.digest "formal" p.version
      p.sha = .ok (name, "published") := by
  have hpublished : validatePublished (publishedFields p name image signer) location p.digest
      "formal" p.version p.sha = .ok () :=
    validatePublished_ok himage hrepository hdigest hversion
  rw [publishRegistry, if_neg himage]
  simp only [validateRegistry, asObject, bind_eq_ok_iff, requireString_eq_ok, ensure_eq_ok]
  refine ⟨_, rfl, name, ⟨rfl, ne_empty_of_registry hname⟩, (), hname, "published",
    ⟨rfl, by decide⟩, ?_⟩
  rw [if_neg (by decide)]
  simp only [bind_eq_ok_iff, ensure_eq_ok]
  exact ⟨(), ⟨trivial, rfl⟩, (), hpublished, rfl⟩

/-- The result of a registry that is not used. -/
theorem validateRegistry_skipped (hname : name ∈ ["dockerhub", "ghcr"]) :
    validateRegistry (publishRegistry p name "" signer) location p.digest "formal" p.version
      p.sha = .ok (name, "skipped") := by
  rw [publishRegistry, if_pos rfl]
  simp only [validateRegistry, asObject, bind_eq_ok_iff, requireString_eq_ok, ensure_eq_ok]
  refine ⟨_, rfl, name, ⟨rfl, ne_empty_of_registry hname⟩, (), hname, "skipped",
    ⟨rfl, by decide⟩, ?_⟩
  rw [if_pos rfl]
  simp only [bind_eq_ok_iff, requireString_eq_ok, ensure_eq_ok]
  exact ⟨(), rfl, "not-configured", ⟨rfl, by decide⟩, (), by decide, rfl⟩

/-- The results of both registries. -/
theorem validateRegistries_ok {logicalRepositoryId repositoryOwner ghcrName dockerhubName : String}
    {images : Images} (himages : resolveRegistries logicalRepositoryId repositoryOwner ghcrName
      dockerhubName = .ok images) (hdigest : isDigest p.digest.toList = true)
    (hversion : isStableSemver p.version = true) (dockerhub ghcr : Signer) :
    validateRegistries location (registryResults p images dockerhub ghcr) p.digest "formal"
      p.version p.sha = .ok () := by
  obtain ⟨hdockerhub, hghcr, hone⟩ := resolveRegistries_ok himages
  have hresult : ∀ (name : String) {image : String} (signer : Signer) (location : String),
      name ∈ ["dockerhub", "ghcr"] → image = "" ∨ isRepositoryName image = true →
      validateRegistry (publishRegistry p name image signer) location p.digest "formal" p.version
        p.sha = .ok (name, if image = "" then "skipped" else "published") := by
    intro name image signer location hname himage
    by_cases hnone : image = ""
    · rw [if_pos hnone, hnone]
      exact validateRegistry_skipped hname
    · rw [if_neg hnone]
      exact validateRegistry_published hname hnone (himage.resolve_left hnone) hdigest hversion
  simp only [validateRegistries, registryResults, bind_eq_ok_iff, arrayOf_eq_ok, ensure_eq_ok]
  refine ⟨_, rfl, (), rfl, [("dockerhub", if images.dockerhub = "" then "skipped" else "published"),
    ("ghcr", if images.ghcr = "" then "skipped" else "published")], ?_, (), rfl, fun _ => ?_⟩
  · simp only [List.zipIdx_cons, List.zipIdx_nil, List.mapM_cons, List.mapM_nil,
      hresult "dockerhub" dockerhub _ (by decide) hdockerhub,
      hresult "ghcr" ghcr _ (by decide) hghcr]
    rfl
  · rcases hone with hone | hone
    · simp [hone]
    · simp [hone]

end Registries

/-! ## The rest of the evidence -/

section Rest

variable {py : Python} {value : Json} {location name : String}

theorem validatePolicy_ok (h : isPolicy value = true) (day : ℕ) :
    validatePolicy py value day = .ok () := by
  unfold isPolicy at h
  split at h
  next fields =>
    simp only [Bool.and_eq_true] at h
    obtain ⟨⟨⟨hkeys, hpolicy⟩, hsigning⟩, hexceptions⟩ := h
    have hexceptions : get fields "exceptions" = .arr [] := by
      split at hexceptions
      next items hitems => rw [hitems, List.isEmpty_iff.1 hexceptions]
      next => cases hexceptions
    simp only [validatePolicy, validateRevision, bind_eq_ok_iff, objectWith_eq_ok, matchText_eq_ok,
      arrayOf_eq_ok, ensure_eq_ok]
    exact ⟨fields, ⟨rfl, hkeys⟩, _, ⟨Json.isText_iff.1 hpolicy, by decide⟩, _,
      ⟨Json.isText_iff.1 hsigning, by decide⟩, [], hexceptions, [], rfl, rfl⟩
  next => cases h

theorem validateEvidenceFile_ok (h : validateReference py value name = .ok ())
    (htext : ∃ s, get (fieldsOf value) "sha256" = .str s) :
    validateEvidenceFile value location = .ok () := by
  simp only [validateReference, bind_eq_ok_iff, objectWith_eq_ok, matchText_eq_ok,
    ensure_eq_ok] at h
  obtain ⟨fields, ⟨rfl, hkeys⟩, file, ⟨hfile, hfilled⟩, hhash⟩ := h
  obtain ⟨hash, hget⟩ := htext
  have hget : get fields "sha256" = .str hash := hget
  rw [getOr_of_hasKeys hkeys (by decide), hget, py.str_str] at hhash
  simp only [validateEvidenceFile, validateSha256, requireString, bind_eq_ok_iff, objectWith_eq_ok,
    matchText_eq_ok]
  exact ⟨fields, ⟨rfl, hkeys⟩, file, ⟨hfile, hfilled⟩, hash, ⟨hget, hhash⟩, rfl⟩

theorem generatedOn_ok {fields : Fields} (h : IsUtc py (get fields "generated_at")) :
    ∃ day, generatedOn py fields = .ok day := by
  obtain ⟨time, day, htime, hday⟩ := h
  have hlist : (time ++ "Z").toList = time.toList ++ ['Z'] := String.toList_append
  refine ⟨day, ?_⟩
  simp only [generatedOn, bind_eq_ok_iff, requireString_eq_ok, ensure_eq_ok]
  refine ⟨time ++ "Z", ⟨htime, append_ne_empty (Or.inr (by decide))⟩, (), ?_, ?_⟩
  · rw [hlist]
    exact List.getLast?_concat
  · rw [hlist, List.dropLast_concat, String.ofList_toList, hday]
    rfl

/-- What a frozen document is accepted for. -/
structure Admitted (py : Python) (frozen : Fields) : Prop where
  keys : hasKeys frozen frozenKeys = true
  repository : isLogicalId (py.str (get frozen "repository")) = true
  image : isLogicalId (py.str (get frozen "image")) = true
  version : isStableSemver (py.str (get frozen "version")) = true
  source : validateSource py (get frozen "source") (get frozen "version") = .ok ()
  policy : isPolicy (get frozen "policy") = true
  dependencies : Builder.validateDependencies py (get frozen "dependencies") = .ok ()
  digest : isDigest (py.str (get frozen "digest")).toList = true
  platforms : Builder.validatePlatforms py (get frozen "platforms") = .ok ()
  sbom : validateReference py (get frozen "sbom") "sbom" = .ok ()
  provenance : validateReference py (get frozen "provenance") "provenance" = .ok ()

theorem validateFrozen_ok {frozen : Fields} (h : validateFrozen py value = .ok frozen) :
    value = .obj frozen ∧ Admitted py frozen := by
  simp only [validateFrozen, bind_eq_ok_iff, objectWith_eq_ok, ensure_eq_ok] at h
  obtain ⟨fields, ⟨rfl, hkeys⟩, _, -, _, hrepository, _, himage, _, hversion, _, hsource, _,
    hpolicy, _, hdependencies, _, hdigest, _, hplatforms, _, hsbom, _, hprovenance, h⟩ := h
  obtain rfl := Except.ok.inj h
  have hget : ∀ name ∈ frozenKeys, ∀ default, getOr fields name default = get fields name :=
    fun name hname => getOr_of_hasKeys hkeys hname
  rw [hget "repository" (by decide)] at hrepository
  rw [hget "image" (by decide)] at himage
  rw [hget "version" (by decide)] at hversion
  rw [hget "digest" (by decide)] at hdigest
  exact ⟨rfl, hkeys, hrepository, himage, hversion, hsource, hpolicy, hdependencies, hdigest,
    hplatforms, hsbom, hprovenance⟩

/-- What the source of a frozen document is accepted for. -/
theorem validateSource_ok {version : Json} (h : validateSource py value version = .ok ()) :
    ∃ source, value = .obj source ∧ hasKeys source sourceKeys = true ∧
      isSha (py.str (get source "commit")) = true ∧
      get source "ref" = .str ("refs/tags/v" ++ py.str version) ∧
      (get source "validation_run_id").isPositive = true := by
  simp only [validateSource, bind_eq_ok_iff, objectWith_eq_ok, ensure_eq_ok] at h
  obtain ⟨source, ⟨hvalue, hkeys⟩, _, hcommit, _, href, hrun⟩ := h
  rw [getOr_of_hasKeys hkeys (by decide)] at hcommit
  exact ⟨source, hvalue, hkeys, hcommit, Json.isText_iff.1 href, hrun⟩

end Rest

/-! ## Documents -/

section Documents

variable {py : Python} {frozen : Fields}

/-- The texts of a frozen document that the script compared. -/
theorem matchesFrozen_iff {p : Publication} :
    matchesFrozen p (.obj frozen) = true ↔
      get frozen "repository" = .str p.logicalRepositoryId ∧
      get frozen "image" = .str p.logicalImageId ∧ get frozen "version" = .str p.version ∧
      get (fieldsOf (get frozen "source")) "commit" = .str p.sha ∧
      get (fieldsOf (get frozen "source")) "ref" = .str ("refs/tags/v" ++ p.version) ∧
      get frozen "digest" = .str p.digest := by
  simp only [matchesFrozen, fieldsOf, Bool.and_eq_true, Json.isText_iff, and_assoc]

/-- The image of the evidence. -/
theorem validateImage_ok {p : Publication} (hadmitted : Admitted py frozen)
    (htexts : HashTexts frozen) (hsettled : Settled py frozen)
    (hmatches : matchesFrozen p (.obj frozen) = true) {registries : Json} (location : String)
    (hregistries : validateRegistries location registries p.digest "formal" p.version p.sha =
      .ok ()) :
    validateImage "formal" p.version p.sha location (.obj (imageFields frozen registries)) =
      .ok p.logicalImageId := by
  obtain ⟨-, himage, -, -, -, hdigest⟩ := matchesFrozen_iff.1 hmatches
  have hid := hadmitted.image
  rw [himage, py.str_str] at hid
  have hvalid := hadmitted.digest
  rw [hdigest, py.str_str] at hvalid
  simp only [validateImage, validateLogicalId, validateDigest, bind_eq_ok_iff, objectWith_eq_ok,
    matchText_eq_ok]
  exact ⟨_, ⟨rfl, rfl⟩, p.logicalImageId, ⟨himage, hid⟩, p.digest, ⟨hdigest, hvalid⟩, (),
    validator_validatePlatforms location htexts.platforms hsettled.digests hadmitted.platforms, (),
    validateEvidenceFile_ok hadmitted.sbom htexts.sbom, (),
    validateEvidenceFile_ok hadmitted.provenance htexts.provenance, (), hregistries, rfl⟩

/-- The evidence with the results that the script wrote. -/
theorem validateReleaseEvidence_ok {p : Publication} (hadmitted : Admitted py frozen)
    (htexts : HashTexts frozen) (hsettled : Settled py frozen)
    (hmatches : matchesFrozen p (.obj frozen) = true) {registries : Json}
    (hregistries : ∀ location, validateRegistries location registries p.digest "formal" p.version
      p.sha = .ok ()) :
    validateReleaseEvidence py (evidenceFields frozen registries) = .ok () := by
  obtain ⟨hrepository, -, hversion, hcommit, href, -⟩ := matchesFrozen_iff.1 hmatches
  have hid := hadmitted.repository
  rw [hrepository, py.str_str] at hid
  have hsemver := hadmitted.version
  rw [hversion, py.str_str] at hsemver
  obtain ⟨source, hsource, hkeys, hsha, -, hrun⟩ := validateSource_ok hadmitted.source
  rw [hsource] at hcommit href
  have hcommit : get source "commit" = .str p.sha := hcommit
  rw [hcommit, py.str_str] at hsha
  obtain ⟨day, hday⟩ : ∃ day, generatedOn py (evidenceFields frozen registries) = .ok day :=
    generatedOn_ok hsettled.generatedAt
  have himages : validateImages (.arr [.obj (imageFields frozen registries)]) "formal" p.version
      p.sha = .ok () := by
    simp only [validateImages, bind_eq_ok_iff, arrayOf_eq_ok, ensure_eq_ok]
    refine ⟨_, rfl, [p.logicalImageId], ?_, rfl⟩
    simp only [List.zipIdx_cons, List.zipIdx_nil, List.mapM_cons, List.mapM_nil,
      validateImage_ok hadmitted htexts hsettled hmatches _ (hregistries _)]
    rfl
  simp only [validateReleaseEvidence, validateLogicalId, validateSemver, bind_eq_ok_iff,
    objectWith_eq_ok, matchText_eq_ok, requireString_eq_ok, ensure_eq_ok]
  exact ⟨(), rfl, (), rfl, _, ⟨hrepository, hid⟩, p.version,
    ⟨hversion, isEvidenceSemver_of_parseSemver hsemver⟩, source, ⟨hsource, hkeys⟩, p.sha,
    ⟨hcommit, ne_empty_of_isSha hsha⟩, (), hsha, _, ⟨href, append_ne_empty (Or.inl (by decide))⟩,
    (), hrun, "formal", ⟨rfl, by decide⟩, (), fun _ => rfl, day, hday, (),
    validatePolicy_ok hadmitted.policy day, (),
    validator_validateDependencies hsettled.dependencies hadmitted.dependencies, (), rfl, (),
    himages, Or.inr rfl⟩

/-- The names in the results. -/
theorem resultNames_registryResults (p : Publication) (images : Images) (dockerhub ghcr : Signer) :
    (resultNames [publishRegistry p "dockerhub" images.dockerhub dockerhub,
      publishRegistry p "ghcr" images.ghcr ghcr]).map Json.text? =
        [some "dockerhub", some "ghcr"] := by
  have hname : ∀ name image signer, ∃ fields, publishRegistry p name image signer = .obj fields ∧
      get fields "name" = .str name := by
    intro name image signer
    rw [publishRegistry]
    split
    · exact ⟨_, rfl, rfl⟩
    · exact ⟨_, rfl, rfl⟩
  obtain ⟨first, hfirst, hdockerhub⟩ := hname "dockerhub" images.dockerhub dockerhub
  obtain ⟨second, hsecond, hghcr⟩ := hname "ghcr" images.ghcr ghcr
  rw [hfirst, hsecond]
  show [(get first "name").text?, (get second "name").text?] = _
  rw [hdockerhub, hghcr]
  rfl

/-- A document of `freeze` was accepted, and its hashes are texts. -/
theorem freeze_ok {now : String} {args : FreezeArgs} {document : Json}
    (h : freeze py now args = .ok document) :
    ∃ frozen, validateFrozen py document = .ok frozen ∧ HashTexts (fieldsOf document) := by
  simp only [freeze, bind_eq_ok_iff, ensure_eq_ok] at h
  obtain ⟨_, -, _, -, _, -, _, -, _, -, platforms, -, dependencies, -, _, -, sbom, -, provenance, -,
    frozen, hfrozen, h⟩ := h
  obtain rfl := Except.ok.inj h
  refine ⟨frozen, hfrozen, ?_, ⟨_, rfl⟩, ⟨_, rfl⟩⟩
  intro item hitem
  obtain ⟨platform, -, rfl⟩ := List.mem_map.1 hitem
  exact ⟨_, rfl⟩

end Documents

/-- A settled document that `freeze` made, or that `validate_frozen` admits, is finalized with any
results that the script can write for it. -/
theorem frozen_evidence_finalizes (py : Python) {frozen registries : Json}
    (hfrozen : (∃ now args, freeze py now args = .ok frozen) ∨
      (validateFrozen py frozen).isOk = true ∧ HashTexts (fieldsOf frozen))
    (hsettled : Settled py (fieldsOf frozen)) (hregistries : Produced frozen registries) :
    finalize py frozen registries = .ok (.obj (evidenceFields (fieldsOf frozen) registries)) := by
  obtain ⟨fields, hvalid, htexts⟩ : ∃ fields, validateFrozen py frozen = .ok fields ∧
      HashTexts (fieldsOf frozen) := by
    rcases hfrozen with ⟨now, args, hfreeze⟩ | ⟨hok, htexts⟩
    · exact freeze_ok hfreeze
    · cases hfields : validateFrozen py frozen with
      | error e =>
        rw [hfields] at hok
        cases hok
      | ok fields => exact ⟨fields, rfl, htexts⟩
  obtain ⟨rfl, hadmitted⟩ := validateFrozen_ok hvalid
  obtain ⟨p, repositoryOwner, ghcrName, dockerhubName, images, dockerhub, ghcr, hmatches,
    himages⟩ := hregistries
  obtain ⟨-, -, hversion, -, -, hdigest⟩ := matchesFrozen_iff.1 hmatches
  have hsemver := hadmitted.version
  rw [hversion, py.str_str] at hsemver
  have hcanonical := hadmitted.digest
  rw [hdigest, py.str_str] at hcanonical
  have hevidence := validateReleaseEvidence_ok hadmitted htexts hsettled hmatches fun _ =>
    validateRegistries_ok himages hcanonical hsemver dockerhub ghcr
  simp only [finalize, bind_eq_ok_iff, arrayOf_eq_ok, ensure_eq_ok]
  exact ⟨fields, hvalid, _, rfl, (), ⟨rfl, resultNames_registryResults p images dockerhub ghcr⟩, (),
    hevidence, rfl⟩

/-! ## Only settled documents -/

section Only

variable {py : Python} {item value : Json} {location : String}

/-- The evidence accepts no other dependency. -/
theorem settled_of_validateDependency {identity : Identity}
    (h : Validator.validateDependency location item = .ok identity) :
    SettledDependency (fieldsOf item) := by
  simp only [Validator.validateDependency, validateLogicalId, bind_eq_ok_iff, objectWith_eq_ok,
    matchText_eq_ok, requireString_eq_ok, ensure_eq_ok] at h
  obtain ⟨fields, ⟨rfl, -⟩, repository, ⟨hrepository, -⟩, commit, ⟨hcommit, -⟩, _, -, _, hversion,
    relation, ⟨hrelation, -⟩, _, hlisted, evidence, hevidence, -⟩ := h
  refine ⟨⟨_, hrepository⟩, ⟨_, hcommit⟩, ?_, ⟨_, hlisted, hrelation⟩, ⟨_, hevidence⟩⟩
  unfold validateOptionalSemver at hversion
  split at hversion
  · rename_i hnull
    exact Or.inl hnull
  · obtain ⟨version, hmatch, -⟩ := map_eq_ok hversion
    exact Or.inr ⟨version, (matchText_eq_ok.1 hmatch).1⟩

theorem settled_of_validateDependencies (h : Validator.validateDependencies value = .ok ()) :
    ∀ item ∈ itemsOf value, SettledDependency (fieldsOf item) := by
  simp only [Validator.validateDependencies, bind_eq_ok_iff, arrayOf_eq_ok] at h
  obtain ⟨items, rfl, identities, hall, -⟩ := h
  intro item hitem
  obtain ⟨index, identity, hidentity⟩ := exists_of_mapM_zipIdx_eq_ok hall hitem
  exact settled_of_validateDependency hidentity

theorem isUtc_of_generatedOn {fields : Fields} {day : ℕ} (h : generatedOn py fields = .ok day) :
    IsUtc py (get fields "generated_at") := by
  simp only [generatedOn, bind_eq_ok_iff, requireString_eq_ok, ensure_eq_ok] at h
  obtain ⟨text, ⟨htext, -⟩, _, hlast, h⟩ := h
  split at h
  · cases h
  next day' utc hday =>
    obtain ⟨_, hutc, -⟩ := bind_eq_ok h
    have hzone : utc = true := ensure_eq_ok.1 hutc
    refine ⟨String.ofList text.toList.dropLast, day', ?_, hzone ▸ hday⟩
    obtain ⟨before, hbefore⟩ := List.getLast?_eq_some_iff.1 hlast
    rw [htext, Json.str.injEq, ← String.toList_inj, String.toList_append, String.toList_ofList,
      hbefore, List.dropLast_concat]
    rfl

/-- What a platform of the evidence is accepted for. -/
theorem validator_validatePlatform_ok {result : String × String}
    (h : Validator.validatePlatform location item = .ok result) :
    result = (architectureOf item, textOf (platformDigest item)) ∧
      platformDigest item = .str (textOf (platformDigest item)) := by
  simp only [Validator.validatePlatform, validateDigest, bind_eq_ok_iff, objectWith_eq_ok,
    matchText_eq_ok, requireString_eq_ok, ensure_eq_ok] at h
  obtain ⟨fields, ⟨rfl, -⟩, _, -, architecture, ⟨harchitecture, -⟩, _, -, digest, ⟨hdigest, -⟩,
    h⟩ := h
  obtain rfl := Except.ok.inj h
  have hdigest : platformDigest (.obj fields) = .str digest := hdigest
  rw [architectureOf, fieldsOf, harchitecture, hdigest]
  exact ⟨rfl, rfl⟩

/-- The evidence accepts no platforms with one digest. -/
theorem digests_of_validatePlatforms (h : Validator.validatePlatforms location value = .ok ()) :
    ((itemsOf value).map platformDigest).Nodup := by
  simp only [Validator.validatePlatforms, bind_eq_ok_iff, arrayOf_eq_ok, ensure_eq_ok] at h
  obtain ⟨items, rfl, _, -, results, hloop, _, -, hnodup⟩ := h
  obtain ⟨rfl, -⟩ := mapM_eq_ok (g := fun p => (architectureOf p.1, textOf (platformDigest p.1)))
    (fun _ _ hitem => (validator_validatePlatform_ok hitem).1) hloop
  have htext : ∀ item ∈ items, platformDigest item = .str (textOf (platformDigest item)) := by
    intro item hitem
    obtain ⟨index, result, hresult⟩ := exists_of_mapM_zipIdx_eq_ok hloop hitem
    exact (validator_validatePlatform_ok hresult).2
  have hresults : (items.zipIdx.map fun p => (architectureOf p.1, textOf (platformDigest p.1))).map
      Prod.snd = items.map fun item => textOf (platformDigest item) := by
    rw [List.map_map]
    show items.zipIdx.map ((fun item => textOf (platformDigest item)) ∘ Prod.fst) = _
    rw [← List.map_map, List.zipIdx_map_fst]
  rw [hresults] at hnodup
  show (items.map platformDigest).Nodup
  rw [map_platformDigest htext]
  exact hnodup.map fun _ _ heq => Json.str.inj heq

/-- What is finalized was settled. -/
theorem settled_of_finalize {frozen registries evidence : Json}
    (h : finalize py frozen registries = .ok evidence) : Settled py (fieldsOf frozen) := by
  simp only [finalize, bind_eq_ok_iff, arrayOf_eq_ok, ensure_eq_ok] at h
  obtain ⟨fields, hvalid, _, -, _, -, _, hevidence, -⟩ := h
  obtain ⟨rfl, -⟩ := validateFrozen_ok hvalid
  simp only [validateReleaseEvidence, bind_eq_ok_iff, ensure_eq_ok] at hevidence
  obtain ⟨_, -, _, -, _, -, version, -, _, -, commit, -, _, -, _, -, _, -, kind, -, _, -, day, hday,
    _, -, _, hdependencies, _, -, _, himages, -⟩ := hevidence
  have hutc : IsUtc py (get fields "generated_at") := isUtc_of_generatedOn hday
  have himages : validateImages (.arr [.obj (imageFields fields registries)]) kind version commit =
      .ok () := himages
  simp only [validateImages, bind_eq_ok_iff, arrayOf_eq_ok] at himages
  obtain ⟨items, hitems, names, hloop, -⟩ := himages
  obtain rfl := Json.arr.inj hitems
  obtain ⟨index, name, himage⟩ := exists_of_mapM_zipIdx_eq_ok hloop List.mem_cons_self
  simp only [validateImage, bind_eq_ok_iff, objectWith_eq_ok] at himage
  obtain ⟨image, ⟨himage, -⟩, _, -, _, -, _, hplatforms, -⟩ := himage
  obtain rfl := Json.obj.inj himage
  have hplatforms : Validator.validatePlatforms _ (get fields "platforms") = .ok () := hplatforms
  exact ⟨settled_of_validateDependencies hdependencies, hutc,
    digests_of_validatePlatforms hplatforms⟩

end Only

/-! ## A run of the scripts -/

/-- The text of two parts of a tuple. -/
def identity? (item : Json × String × Json) : Option Identity :=
  item.1.text?.bind fun repository =>
    item.2.2.text?.map fun commit => toLex (repository, toLex (item.2.1, commit))

/-- An interpreter that reads times without fractions. -/
def plainPython : Python where
  str
    | .null => "None"
    | .bool b => if b then "True" else "False"
    | .int n => toString n
    | .float text => text
    | .str s => s
    | .arr _ => "[]"
    | .obj _ => "\x7b\x7d"
  str_str _ := rfl
  isSortedSet items :=
    match items.mapM identity? with
    | some identities => decide (sortedSet identities = identities)
    | none => decide (items.length ≤ 1)
  isSortedSet_texts items := by
    rw [mapM_map_eq_some (f := identity?) fun _ => rfl]
  datetime text := if isDate (text.toList.take 10) ∧ text.toList.drop 19 = "+00:00".toList then
    some (0, true) else none
  date text := if isDate text.toList then some 0 else none

/-! ## A release of a service -/

/-- A hash of one digit. -/
def digitHash (n : Nat) (c : Char) : String := String.ofList (List.replicate n c)

def frozenSha : String := digitHash 40 'c'

def imageHash (c : Char) : String := digitHash 64 c

def imageDigest (c : Char) : String := "sha256:" ++ imageHash c

/-- A dependency of the image. -/
def dependencyJson (relation : String) : Json :=
  .obj [("repository", .str "protocol"), ("commit", .str frozenSha), ("version", .null),
    ("relation", .str relation), ("evidence", .str "protocol-evidence.json")]

/-- An image for two architectures, with one dependency. -/
def freezeArgs (relation generatedAt : String) (amd64 arm64 : Char) : FreezeArgs where
  repository := "service"
  image := "service"
  version := "1.0.0"
  commit := frozenSha
  validationRunId := 7
  digest := imageDigest '0'
  platform := ["linux" ++ "/" ++ "amd64" ++ "=" ++ imageDigest amd64,
    "linux" ++ "/" ++ "arm64" ++ "=" ++ imageDigest arm64]
  sbom := .ok ("sbom.json", imageHash 'a')
  provenance := .ok ("provenance.json", imageHash 'b')
  dependencies := some (.ok (.arr [dependencyJson relation]))
  generatedAt := some generatedAt

def publication : Publication where
  githubRepository := "owner/service"
  logicalRepositoryId := "service"
  logicalImageId := "service"
  version := "1.0.0"
  sha := frozenSha
  digest := imageDigest '0'

def ghcrImages : Images := ⟨"", "ghcr.io/owner/service", "ghcr.io/owner/service"⟩

/-- The document that is frozen for the image. -/
def serviceFrozen (relation generatedAt : String) (amd64 arm64 : Char) : Json :=
  frozenJson (freezeArgs relation generatedAt amd64 arm64) generatedAt
    (.arr [dependencyJson relation])
    [(toLex ("linux", "amd64"), imageDigest amd64), (toLex ("linux", "arm64"), imageDigest arm64)]
    ("sbom.json", imageHash 'a') ("provenance.json", imageHash 'b')

def serviceResults : Json := registryResults publication ghcrImages .tag .tag

section Service

variable {relation generatedAt now : String} {c amd64 arm64 : Char}

theorem toList_digitHash (n : Nat) (c : Char) : (digitHash n c).toList = List.replicate n c :=
  String.toList_ofList

theorem isSha_digitHash (h : isHex c = true) : isSha (digitHash 40 c) = true := by
  rw [isSha, toList_digitHash, List.length_replicate, List.all_replicate, h]
  rfl

theorem isSha256_imageHash (h : isHex c = true) : isSha256 (imageHash c) = true := by
  rw [isSha256, imageHash, toList_digitHash, List.length_replicate, List.all_replicate, h]
  rfl

theorem isDigest_imageDigest (h : isHex c = true) : isDigest (imageDigest c).toList = true := by
  have hlist : (imageDigest c).toList = "sha256:".toList ++ List.replicate 64 c := by
    rw [imageDigest, imageHash, String.toList_append, toList_digitHash]
  have hdrop : ("sha256:".toList ++ List.replicate 64 c).drop 7 = List.replicate 64 c :=
    List.drop_left' (show "sha256:".toList.length = 7 from rfl)
  rw [isDigest, hlist, hdrop, List.length_replicate, List.all_replicate, h]
  rfl

theorem produced_service (relation generatedAt : String) (amd64 arm64 : Char) :
    Produced (serviceFrozen relation generatedAt amd64 arm64) serviceResults := by
  refine Produced.results publication "Owner" "service" "" ghcrImages .tag .tag ?_ ?_
  · exact matchesFrozen_iff.2 ⟨rfl, rfl, rfl, rfl, rfl, rfl⟩
  · rfl

/-- The two platforms as they are given. -/
theorem mapM_parsePlatform (amd64 arm64 : Char) :
    (freezeArgs relation generatedAt amd64 arm64).platform.mapM parsePlatform =
      .ok [(toLex ("linux", "amd64"), imageDigest amd64),
        (toLex ("linux", "arm64"), imageDigest arm64)] := by
  rw [freezeArgs, List.mapM_cons, List.mapM_cons, parsePlatform_eq (by decide) (by decide),
    parsePlatform_eq (by decide) (by decide)]
  rfl

/-- The dependency of the image. -/
theorem validateDependencies_service (relation : String) :
    Builder.validateDependencies plainPython (.arr [dependencyJson relation]) = .ok () := by
  have hitem : Builder.validateDependency plainPython (dependencyJson relation) =
      .ok (.str "protocol", relation, .str frozenSha) := by
    simp only [Builder.validateDependency, bind_eq_ok_iff, objectWith_eq_ok, ensure_eq_ok]
    exact ⟨_, ⟨rfl, rfl⟩, (), show isLogicalId "protocol" = true by decide, (),
      isSha_digitHash (by decide), (), rfl, rfl⟩
  simp only [Builder.validateDependencies, bind_eq_ok_iff, arrayOf_eq_ok, ensure_eq_ok]
  refine ⟨_, rfl, [(.str "protocol", relation, .str frozenSha)], ?_, ?_⟩
  · rw [List.mapM_cons, hitem]
    rfl
  · have hsorted := plainPython.isSortedSet_texts [toLex ("protocol", toLex (relation, frozenSha))]
    rw [decide_eq_true (sortedSet_eq_self_iff.2 (List.pairwise_singleton _ _))] at hsorted
    exact hsorted

/-- The platforms of the image. -/
theorem validatePlatforms_service (hamd64 : isHex amd64 = true) (harm64 : isHex arm64 = true) :
    Builder.validatePlatforms plainPython (.arr ([(toLex ("linux", "amd64"), imageDigest amd64),
      (toLex ("linux", "arm64"), imageDigest arm64)].map platformJson)) = .ok () := by
  have hitem : ∀ {architecture : String} {c : Char},
      ["amd64", "arm64"].contains architecture = true → isHex c = true → Builder.validatePlatform plainPython
        (platformJson (toLex ("linux", architecture), imageDigest c)) = .ok architecture := by
    intro architecture c hlisted hc
    simp only [Builder.validatePlatform, platformJson, bind_eq_ok_iff, objectWith_eq_ok,
      matchText_eq_ok, ensure_eq_ok]
    exact ⟨_, ⟨rfl, rfl⟩, architecture, ⟨rfl, hlisted⟩, (), ⟨rfl, isDigest_imageDigest hc⟩, rfl⟩
  simp only [Builder.validatePlatforms, bind_eq_ok_iff, arrayOf_eq_ok, ensure_eq_ok]
  refine ⟨_, rfl, (), List.cons_ne_nil _ _, ["amd64", "arm64"], ?_, by decide +kernel⟩
  rw [List.map_cons, List.map_cons, List.mapM_cons, List.mapM_cons, hitem (by decide) hamd64,
    hitem (by decide) harm64]
  rfl

theorem validateReference_service (name file : String) (hfile : (!file.isEmpty) = true)
    (hc : isHex c = true) :
    validateReference plainPython (fileJson (file, imageHash c)) name = .ok () := by
  simp only [validateReference, fileJson, bind_eq_ok_iff, objectWith_eq_ok, matchText_eq_ok,
    ensure_eq_ok]
  exact ⟨_, ⟨rfl, rfl⟩, file, ⟨rfl, hfile⟩, isSha256_imageHash hc⟩

/-- The document is accepted, whatever the relation of the dependency and the time are. -/
theorem validateFrozen_service (hamd64 : isHex amd64 = true) (harm64 : isHex arm64 = true) :
    validateFrozen plainPython (serviceFrozen relation generatedAt amd64 arm64) =
      .ok (fieldsOf (serviceFrozen relation generatedAt amd64 arm64)) := by
  have hservice : isLogicalId "service" = true := by decide
  have hversion : isStableSemver "1.0.0" = true := by decide
  have hsource : validateSource plainPython (.obj [("commit", .str frozenSha),
      ("ref", .str ("refs/tags/v" ++ "1.0.0")), ("validation_run_id", .int 7)]) (.str "1.0.0") =
        .ok () := by
    simp only [validateSource, bind_eq_ok_iff, objectWith_eq_ok, ensure_eq_ok]
    exact ⟨_, ⟨rfl, rfl⟩, (), isSha_digitHash (by decide), (), rfl, rfl⟩
  simp only [validateFrozen, serviceFrozen, frozenJson, bind_eq_ok_iff, objectWith_eq_ok,
    ensure_eq_ok]
  exact ⟨_, ⟨rfl, rfl⟩, (), rfl, (), hservice, (), hservice, (), hversion, (), hsource, (), rfl, (),
    validateDependencies_service relation, (), isDigest_imageDigest (by decide), (),
    validatePlatforms_service hamd64 harm64, (),
    validateReference_service _ "sbom.json" (by decide) (by decide), (),
    validateReference_service _ "provenance.json" (by decide) (by decide), rfl⟩

theorem freeze_service (now : String) (htime : generatedAt ≠ "") (hamd64 : isHex amd64 = true)
    (harm64 : isHex arm64 = true) :
    freeze plainPython now (freezeArgs relation generatedAt amd64 arm64) =
      .ok (serviceFrozen relation generatedAt amd64 arm64) := by
  have hservice : isLogicalId "service" = true := by decide
  have hversion : isStableSemver "1.0.0" = true := by decide
  have horder : (toLex ("linux", "amd64") : String ×ₗ String) ≤ toLex ("linux", "arm64") := by
    decide +kernel
  have hsort : List.insertionSort (fun a b => a.1 ≤ b.1)
      [(toLex ("linux", "amd64"), imageDigest amd64),
        (toLex ("linux", "arm64"), imageDigest arm64)] =
      [(toLex ("linux", "amd64"), imageDigest amd64),
        (toLex ("linux", "arm64"), imageDigest arm64)] :=
    List.Pairwise.insertionSort_eq (List.pairwise_pair.2 horder)
  have htext : generatedText now (some generatedAt) = generatedAt :=
    if_neg (by rw [String.isEmpty_iff]; exact htime)
  simp only [freeze, bind_eq_ok_iff, ensure_eq_ok]
  refine ⟨(), hservice, (), hservice, (), hversion, (), isSha_digitHash (by decide), (),
    isDigest_imageDigest (by decide), _, mapM_parsePlatform amd64 arm64, _, rfl, (),
    validateDependencies_service relation, _, rfl, _, rfl,
    fieldsOf (serviceFrozen relation generatedAt amd64 arm64), ?_, ?_⟩
  · rw [hsort]
    show validateFrozen plainPython
      (frozenJson _ (generatedText now (some generatedAt)) _ _ _ _) = _
    rw [htext]
    exact validateFrozen_service hamd64 harm64
  · rw [hsort]
    show Except.ok (frozenJson _ (generatedText now (some generatedAt)) _ _ _ _) = _
    rw [htext]
    rfl

end Service

/-- A document that is frozen, and for which images are pushed, before its evidence is refused. -/
structure RefusedLate (args : FreezeArgs) (frozen registries : Json) : Prop where
  frozenFirst : freeze plainPython "2026-08-01T00:00:00Z" args = .ok frozen
  produced : Produced frozen registries
  refused : (finalize plainPython frozen registries).isOk = false

/-- Any such document is refused late unless it is settled. -/
theorem refusedLate_service {relation generatedAt : String} {amd64 arm64 : Char}
    (htime : generatedAt ≠ "") (hamd64 : isHex amd64 = true) (harm64 : isHex arm64 = true)
    (h : ¬Settled plainPython (fieldsOf (serviceFrozen relation generatedAt amd64 arm64))) :
    RefusedLate (freezeArgs relation generatedAt amd64 arm64)
      (serviceFrozen relation generatedAt amd64 arm64) serviceResults := by
  refine ⟨freeze_service _ htime hamd64 harm64,
    produced_service relation generatedAt amd64 arm64, ?_⟩
  cases hfinal : finalize plainPython (serviceFrozen relation generatedAt amd64 arm64)
      serviceResults with
  | error message => rfl
  | ok evidence => exact absurd (settled_of_finalize hfinal) h

/-- A relation that the evidence does not have, one digest for both platforms, and a time that is
not in UTC. -/
theorem unsettled_evidence_refused :
    RefusedLate (freezeArgs "uses" "2026-08-01T00:00:00Z" '1' '2')
      (serviceFrozen "uses" "2026-08-01T00:00:00Z" '1' '2') serviceResults ∧
    RefusedLate (freezeArgs "bundles" "2026-08-01T00:00:00Z" '1' '1')
      (serviceFrozen "bundles" "2026-08-01T00:00:00Z" '1' '1') serviceResults ∧
    RefusedLate (freezeArgs "bundles" "yesterday" '1' '2')
      (serviceFrozen "bundles" "yesterday" '1' '2') serviceResults := by
  refine ⟨refusedLate_service (by decide) (by decide) (by decide) fun hsettled => ?_,
    refusedLate_service (by decide) (by decide) (by decide) fun hsettled => ?_,
    refusedLate_service (by decide) (by decide) (by decide) fun hsettled => ?_⟩
  · obtain ⟨relation, hlisted, hrelation⟩ :=
      (hsettled.dependencies (dependencyJson "uses") List.mem_cons_self).relation
    obtain rfl : "uses" = relation := Json.str.inj hrelation
    exact absurd hlisted (by decide)
  · have hdigests : [Json.str (imageDigest '1'), Json.str (imageDigest '1')].Nodup :=
      hsettled.digests
    simp at hdigests
  · obtain ⟨time, day, htime, -⟩ := hsettled.generatedAt
    have htime : "yesterday" = time ++ "Z" := Json.str.inj htime
    have hlast := congrArg (fun s => s.toList.getLast?) htime
    simp at hlast

theorem frozen_evidence_finalizes_bundled :
    freeze plainPython "now" (freezeArgs "bundles" "2026-08-01T00:00:00Z" '1' '2') =
      .ok (serviceFrozen "bundles" "2026-08-01T00:00:00Z" '1' '2') ∧
    Settled plainPython (fieldsOf (serviceFrozen "bundles" "2026-08-01T00:00:00Z" '1' '2')) ∧
    Produced (serviceFrozen "bundles" "2026-08-01T00:00:00Z" '1' '2') serviceResults ∧
    finalize plainPython (serviceFrozen "bundles" "2026-08-01T00:00:00Z" '1' '2') serviceResults =
      .ok (.obj (evidenceFields
        (fieldsOf (serviceFrozen "bundles" "2026-08-01T00:00:00Z" '1' '2')) serviceResults)) := by
  have hfreeze : freeze plainPython "now" (freezeArgs "bundles" "2026-08-01T00:00:00Z" '1' '2') =
      .ok (serviceFrozen "bundles" "2026-08-01T00:00:00Z" '1' '2') :=
    freeze_service "now" (by decide) (by decide) (by decide)
  have hsettled : Settled plainPython
      (fieldsOf (serviceFrozen "bundles" "2026-08-01T00:00:00Z" '1' '2')) := by
    refine ⟨?_, ⟨"2026-08-01T00:00:00", 0, rfl, by decide +kernel⟩, ?_⟩
    · exact List.forall_mem_singleton.2
        ⟨⟨_, rfl⟩, ⟨_, rfl⟩, Or.inl rfl, ⟨_, by decide, rfl⟩, ⟨_, rfl, by decide⟩⟩
    · show [Json.str (imageDigest '1'), Json.str (imageDigest '2')].Nodup
      have hne : imageDigest '1' ≠ imageDigest '2' := by decide +kernel
      simp [hne]
  have hproduced := produced_service "bundles" "2026-08-01T00:00:00Z" '1' '2'
  exact ⟨hfreeze, hsettled, hproduced,
    frozen_evidence_finalizes plainPython (Or.inl ⟨_, _, hfreeze⟩) hsettled hproduced⟩

end RemoteServer.Releases.Builder
