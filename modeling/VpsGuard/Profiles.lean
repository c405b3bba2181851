import VpsGuard.Text.Words

/-!
# Application profiles

What `guard-profiles` knows of the applications behind the edge: from the
target of a request to the kind of its route, a cost for it, and a key under
which it is reported (`classify`). The kind is found by looking for words in
the path, in an order that depends on the application; the cost depends on the
kind alone (`baseCost`).

The key is the path without its query, cut into segments. Numbers, identifiers
and tokens are replaced by a placeholder, and what is too long is cut off
(`normalizeRoute`). So keys are short, and have no identifiers
(`normalizeRoute_bounded`).

A target is a `List Char`.
-/

namespace VpsGuard

open List Text

/-- The applications that are known. -/
inductive ApplicationProfile
  | php
  | gnuboard5
  | gnuboard7
  | wordpress
  deriving DecidableEq

/-- What a route is for. -/
inductive RouteKind
  | static
  | publicPage
  | board
  | search
  | authentication
  | write
  | media
  | upload
  | dynamic
  | admin
  | api
  | remoteProcedure
  deriving DecidableEq

/-- What is known of a route. -/
structure RouteProfile where
  normalizedRoute : List Char
  kind : RouteKind
  baseCost : ℕ

def baseCost : RouteKind → ℕ
  | .static => 1
  | .publicPage => 2
  | .board => 4
  | .search => 10
  | .authentication => 12
  | .write => 12
  | .media => 15
  | .upload => 15
  | .dynamic => 6
  | .admin => 12
  | .api => 8
  | .remoteProcedure => 15

def targetPath (rawTarget : List Char) : List Char := rawTarget.takeWhile (· ≠ '?')

/-! ## Keys -/

def isHexDigit (c : Char) : Bool :=
  c.isDigit || ('a' ≤ c && c ≤ 'f') || ('A' ≤ c && c ≤ 'F')

variable (segment : List Char)

def isUuid : Bool :=
  byteLength segment = 36 && segment.zipIdx.all fun ci =>
    if [8, 13, 18, 23].contains ci.2 then ci.1 = '-' else isHexDigit ci.1

def opaqueToken : Bool :=
  if byteLength segment > 64 then true
  else
    let allHex := byteLength segment ≥ 16 && segment.all isHexDigit
    let tokenLike := byteLength segment ≥ 32 &&
      segment.all fun c => c.isAlphanum || ['-', '_', '=', '%'].contains c
    allHex || tokenLike

def normalizeSegment : List Char :=
  if segment.all Char.isDigit || isUuid segment then ":id".toList
  else if segment.contains '@' || opaqueToken segment then ":opaque".toList
  else segment

def maxSegments : ℕ := 16

def maxRouteBytes : ℕ := 256

/-- The key of the segments from the one of the given index on, after what there
    is of it, and whether it was cut off. -/
def normalizeSegments (normalized : List Char) (index : ℕ) : List (List Char) → List Char × Bool
  | [] => (normalized, false)
  | segment :: segments =>
    if index = maxSegments then (normalized, true)
    else
      let bounded := normalizeSegment segment
      if byteLength normalized + 1 + byteLength bounded >
          maxRouteBytes - byteLength "/:other".toList then (normalized, true)
      else normalizeSegments (normalized ++ '/' :: bounded) (index + 1) segments

/-- A route without what tells its requests apart, within bounds. -/
def normalizeRoute (rawTarget : List Char) : List Char :=
  let segments := ((targetPath rawTarget).splitOn '/').filter (· ≠ [])
  let (normalized, truncated) := normalizeSegments [] 0 segments
  let normalized := if truncated then normalized ++ "/:other".toList else normalized
  if normalized = [] then ['/'] else normalized

/-! ## Kinds -/

variable (path : List Char)

/-- The path is that of a file by its extension. -/
def isStatic : Bool :=
  (rsplitOnce '.' path).any fun parts =>
    ["css".toList, "js".toList, "jpg".toList, "jpeg".toList, "png".toList, "gif".toList,
      "webp".toList, "svg".toList, "ico".toList, "woff".toList, "woff2".toList].contains
      (toLower parts.2)

/-- The path ends as that of a PHP program. -/
def isPhp : Bool := endsWith ".php".toList (toLower path)

/-- The kinds of any PHP application. -/
def classifyPhp : RouteKind :=
  if isStatic path then .static
  else if containsAny ["/admin".toList, "admin.php".toList] path then .admin
  else if containsAny ["login".toList, "register".toList, "password".toList, "auth".toList]
      path then .authentication
  else if contains "search".toList path then .search
  else if containsAny ["write".toList, "comment".toList, "create".toList, "update".toList]
      path then .write
  else if containsAny ["upload".toList, "attachment".toList, "avatar".toList] path then .upload
  else if containsAny ["download".toList, "/file".toList, "/media".toList] path then .media
  else if endsWith "/xmlrpc.php".toList path || path = "/xmlrpc.php".toList then
    .remoteProcedure
  else if startsWith "/api/".toList path then .api
  else if isPhp path then .dynamic
  else .publicPage

def classifyGnuboard5 : RouteKind :=
  if isStatic path then .static
  else if path = "/adm".toList || startsWith "/adm/".toList path then .admin
  else if startsWith "/api/".toList path then .api
  else if contains "search.php".toList path then .search
  else if containsAny ["login.php".toList, "register".toList, "password".toList,
      "member_confirm".toList] path then .authentication
  else if containsAny ["write".toList, "comment".toList, "delete".toList,
      "move_update".toList] path then .write
  else if containsAny ["upload".toList, "ajax.file".toList, "file_form".toList] path then
    .upload
  else if containsAny ["download.php".toList, "/data/file/".toList] path then .media
  else if startsWith "/bbs/".toList path then .board
  else if isPhp path then .dynamic
  else .publicPage

def classifyGnuboard7 : RouteKind :=
  if isStatic path then .static
  else if path = "/admin".toList || startsWith "/admin/".toList path ||
      path = "/api/admin".toList || startsWith "/api/admin/".toList path ||
      path = "/api/auth/admin".toList || startsWith "/api/auth/admin/".toList path then .admin
  else if path = "/login".toList || path = "/register".toList ||
      startsWith "/forgot-password".toList path ||
      startsWith "/reset-password".toList path || startsWith "/api/auth/".toList path ||
      startsWith "/api/user/auth/".toList path ||
      startsWith "/api/me/verify-password".toList path ||
      startsWith "/api/me/password".toList path ||
      startsWith "/api/identity/".toList path || path = "/api/broadcasting/auth".toList then
    .authentication
  else if path = "/search".toList || startsWith "/api/search".toList path then .search
  else if containsAny ["/avatar".toList, "/upload".toList, "/attachments".toList] path then
    .upload
  else if containsAny ["/posts".toList, "/comments".toList, "/write".toList] path then .write
  else if startsWith "/api/attachment/".toList path then .media
  else if startsWith "/api/".toList path then .api
  else if isPhp path then .dynamic
  else .publicPage

def classifyWordpress : RouteKind :=
  if isStatic path || startsWith "/wp-content/".toList path ||
      startsWith "/wp-includes/".toList path then .static
  else if path = "/wp-admin".toList || startsWith "/wp-admin/".toList path then .admin
  else if path = "/wp-login.php".toList || contains "lostpassword".toList path then
    .authentication
  else if path = "/xmlrpc.php".toList then .remoteProcedure
  else if startsWith "/wp-json/".toList path || endsWith "/feed/".toList path then .api
  else if contains "/search/".toList path then .search
  else if contains "upload".toList path then .upload
  else .publicPage

/-- What is known of the route of a target. -/
def classify (profile : ApplicationProfile) (rawTarget : List Char) : RouteProfile :=
  let path := targetPath rawTarget
  let kind :=
    match profile with
    | .php => classifyPhp path
    | .gnuboard5 => classifyGnuboard5 path
    | .gnuboard7 => classifyGnuboard7 path
    | .wordpress => classifyWordpress path
  { normalizedRoute := normalizeRoute path
    kind
    baseCost := baseCost kind }

/-! ## What keys are like -/

/-- A segment without identifiers. -/
structure Anonymous : Prop where
  ne_nil : segment ≠ []
  short : byteLength segment ≤ 64
  not_number : ¬ segment.all Char.isDigit
  not_uuid : ¬ isUuid segment
  not_hex : ¬ (16 ≤ byteLength segment ∧ segment.all isHexDigit)
  not_mail : '@' ∉ segment

theorem normalizeSegment_cases :
    normalizeSegment segment = ":id".toList ∨ normalizeSegment segment = ":opaque".toList ∨
      normalizeSegment segment = segment ∧ ¬ segment.all Char.isDigit ∧ ¬ isUuid segment ∧
        '@' ∉ segment ∧ ¬ opaqueToken segment := by
  rw [normalizeSegment]
  split
  · exact .inl rfl
  · next hid =>
    split
    · exact .inr (.inl rfl)
    · next hopaque =>
      rw [Bool.or_eq_true, not_or] at hid hopaque
      exact .inr (.inr ⟨rfl, hid.1, hid.2, by simpa using hopaque.1, hopaque.2⟩)

theorem anonymous_placeholder {word : List Char}
    (h : word ∈ [":id".toList, ":opaque".toList, ":other".toList]) : Anonymous word := by
  have hall : ∀ word ∈ [":id".toList, ":opaque".toList, ":other".toList],
      word ≠ [] ∧ byteLength word ≤ 15 ∧ ¬ word.all Char.isDigit ∧ ¬ isUuid word ∧
        '@' ∉ word := by decide
  obtain ⟨hne, hshort, hnumber, huuid, hmail⟩ := hall word h
  exact ⟨hne, by omega, hnumber, huuid, fun hhex => by omega, hmail⟩

theorem anonymous_normalizeSegment {segment : List Char} (h : segment ≠ []) :
    Anonymous (normalizeSegment segment) := by
  rcases normalizeSegment_cases segment with heq | heq | ⟨heq, hnumber, huuid, hmail, hopaque⟩
  · exact heq ▸ anonymous_placeholder (by decide)
  · exact heq ▸ anonymous_placeholder (by decide)
  · rw [heq]
    have hshort : ¬ byteLength segment > 64 := fun hlong => hopaque (if_pos hlong)
    rw [opaqueToken, if_neg hshort, Bool.or_eq_true, not_or] at hopaque
    exact ⟨h, Nat.not_lt.1 hshort, hnumber, huuid, by simpa using hopaque.1, hmail⟩

theorem normalizeSegment_normalizeSegment :
    normalizeSegment (normalizeSegment segment) = normalizeSegment segment := by
  rcases normalizeSegment_cases segment with heq | heq | ⟨heq, -⟩
  · rw [heq]
    decide
  · rw [heq]
    decide
  · rw [heq, heq]

theorem not_mem_normalizeSegment {segment : List Char} {c : Char} (hc : c = '/' ∨ c = '?')
    (h : c ∉ segment) : c ∉ normalizeSegment segment := by
  rcases normalizeSegment_cases segment with heq | heq | ⟨heq, -⟩
  · rcases hc with rfl | rfl <;> rw [heq] <;> decide
  · rcases hc with rfl | rfl <;> rw [heq] <;> decide
  · rwa [heq]

/-- The key with these segments. -/
def keyOf (segments : List (List Char)) : List Char := segments.flatMap ('/' :: ·)

variable {segments : List (List Char)}

theorem splitOn_keyOf (h : ∀ segment ∈ segments, '/' ∉ segment) :
    (keyOf segments).splitOn '/' = [] :: segments := by
  have heq : keyOf segments = ['/'].intercalate ([] :: segments) := by
    induction segments with
    | nil => rfl
    | cons segment segments ih =>
      rw [keyOf, flatMap_cons, ← keyOf, ih (forall_mem_cons.1 h).2]
      cases segments <;> simp [List.intercalate]
  rw [heq]
  exact splitOn_intercalate '/' (forall_mem_cons.2 ⟨not_mem_nil, h⟩) (cons_ne_nil _ _)

theorem not_mem_keyOf (h : ∀ segment ∈ segments, '?' ∉ segment) : '?' ∉ keyOf segments := by
  intro hmem
  obtain ⟨segment, hsegment, hmem⟩ := mem_flatMap.1 hmem
  exact h segment hsegment ((mem_cons.1 hmem).resolve_left (by decide))

theorem normalizeSegments_eq (normalized : List Char) (index : ℕ) (segments : List (List Char))
    (hindex : index ≤ maxSegments) (hroom : byteLength normalized ≤ 249) :
    ∃ kept rest, segments.map normalizeSegment = kept ++ rest ∧
      normalizeSegments normalized index segments =
        (normalized ++ keyOf kept, !rest.isEmpty) ∧
      index + kept.length ≤ maxSegments ∧ byteLength (normalized ++ keyOf kept) ≤ 249 := by
  induction segments generalizing normalized index with
  | nil => exact ⟨[], [], rfl, by simp [normalizeSegments, keyOf], hindex, by simpa [keyOf]⟩
  | cons segment segments ih =>
    have hstop : ∃ kept rest, (segment :: segments).map normalizeSegment = kept ++ rest ∧
        (normalized, true) = (normalized ++ keyOf kept, !rest.isEmpty) ∧
        index + kept.length ≤ maxSegments ∧ byteLength (normalized ++ keyOf kept) ≤ 249 :=
      ⟨[], _, rfl, by simp [keyOf], hindex, by simpa [keyOf]⟩
    rw [normalizeSegments]
    split
    · exact hstop
    · next hmore =>
      dsimp only
      split
      · exact hstop
      · next hfits =>
        have hbytes : byteLength (normalized ++ '/' :: normalizeSegment segment) ≤ 249 := by
          have hlimit : maxRouteBytes - byteLength "/:other".toList = 249 := by decide
          have hslash : Char.utf8Size '/' = 1 := by decide
          rw [hlimit] at hfits
          simp only [byteLength, map_append, map_cons, sum_append, sum_cons] at hfits ⊢
          omega
        obtain ⟨kept, rest, hmap, heq, hlength, hle⟩ := ih _ (index + 1) (by omega) hbytes
        have hkey : normalized ++ keyOf (normalizeSegment segment :: kept) =
            normalized ++ '/' :: normalizeSegment segment ++ keyOf kept := by
          simp [keyOf]
        refine ⟨normalizeSegment segment :: kept, rest, ?_, ?_, ?_, ?_⟩
        · rw [map_cons, hmap]
          rfl
        · rw [heq, hkey]
        · rw [length_cons]
          omega
        · rwa [hkey]

theorem normalizeSegments_append {kept : List (List Char)} (more : List (List Char))
    (hkept : ∀ segment ∈ kept, normalizeSegment segment = segment) (normalized : List Char)
    (index : ℕ) (hindex : index + kept.length ≤ maxSegments)
    (hroom : byteLength (normalized ++ keyOf kept) ≤ 249) :
    normalizeSegments normalized index (kept ++ more) =
      normalizeSegments (normalized ++ keyOf kept) (index + kept.length) more := by
  induction kept generalizing normalized index with
  | nil => simp [keyOf]
  | cons segment kept ih =>
    rw [forall_mem_cons] at hkept
    have hkey : normalized ++ keyOf (segment :: kept) =
        normalized ++ '/' :: segment ++ keyOf kept := by
      simp [keyOf]
    rw [hkey] at hroom ⊢
    rw [length_cons] at hindex ⊢
    have hfits : ¬ byteLength normalized + 1 + byteLength segment >
        maxRouteBytes - byteLength "/:other".toList := by
      have hlimit : maxRouteBytes - byteLength "/:other".toList = 249 := by decide
      have hslash : Char.utf8Size '/' = 1 := by decide
      rw [hlimit]
      simp only [byteLength, map_append, map_cons, sum_append, sum_cons] at hroom ⊢
      omega
    rw [cons_append, normalizeSegments, if_neg (by omega), hkept.1]
    dsimp only
    rw [if_neg hfits, ih hkept.2 _ (index + 1) (by omega) hroom, Nat.add_assoc, Nat.add_comm 1]

theorem normalizeRoute_eq (target : List Char) : ∃ kept other, normalizeRoute target =
      (if keyOf (kept ++ other) = [] then ['/'] else keyOf (kept ++ other)) ∧
    (other = [] ∨ other = [":other".toList]) ∧
    (∀ segment ∈ kept ++ other, Anonymous segment ∧ '/' ∉ segment ∧ '?' ∉ segment) ∧
    (∀ segment ∈ kept, normalizeSegment segment = segment) ∧
    kept.length ≤ maxSegments ∧ byteLength (keyOf kept) ≤ 249 := by
  obtain ⟨kept, rest, hmap, heq, hlength, hbytes⟩ := normalizeSegments_eq [] 0
    (((targetPath target).splitOn '/').filter (· ≠ [])) (Nat.zero_le _) (Nat.zero_le _)
  rw [nil_append] at heq hbytes
  rw [Nat.zero_add] at hlength
  have hkept : ∀ segment ∈ kept, ∃ raw ∈ ((targetPath target).splitOn '/').filter (· ≠ []),
      normalizeSegment raw = segment := fun segment hsegment =>
    mem_map.1 (hmap ▸ mem_append_left rest hsegment)
  refine ⟨kept, if rest = [] then [] else [":other".toList], ?_, ?_, ?_, ?_, hlength, hbytes⟩
  · rw [normalizeRoute, heq]
    cases rest <;> simp [keyOf]
  · split
    · exact .inl rfl
    · exact .inr rfl
  · intro segment hsegment
    rcases mem_append.1 hsegment with hmem | hmem
    · obtain ⟨raw, hraw, rfl⟩ := hkept segment hmem
      obtain ⟨hpart, hne⟩ := mem_filter.1 hraw
      obtain ⟨hslash, hsubset⟩ := of_mem_splitOn hpart
      have hquery : '?' ∉ raw := fun hmem => by
        simpa using mem_takeWhile_imp (hsubset hmem)
      exact ⟨anonymous_normalizeSegment (by simpa using hne),
        not_mem_normalizeSegment (.inl rfl) hslash, not_mem_normalizeSegment (.inr rfl) hquery⟩
    · split at hmem
      · cases hmem
      · rw [mem_singleton.1 hmem]
        exact ⟨anonymous_placeholder (by decide), by decide⟩
  · intro segment hsegment
    obtain ⟨raw, -, rfl⟩ := hkept segment hsegment
    exact normalizeSegment_normalizeSegment raw

theorem normalizeRoute_keyOf {kept other : List (List Char)}
    (hother : other = [] ∨ other = [":other".toList])
    (hclean : ∀ segment ∈ kept ++ other, Anonymous segment ∧ '/' ∉ segment ∧ '?' ∉ segment)
    (hkept : ∀ segment ∈ kept, normalizeSegment segment = segment)
    (hlength : kept.length ≤ maxSegments) (hbytes : byteLength (keyOf kept) ≤ 249)
    (hne : keyOf (kept ++ other) ≠ []) :
    normalizeRoute (keyOf (kept ++ other)) = keyOf (kept ++ other) := by
  have hpath : targetPath (keyOf (kept ++ other)) = keyOf (kept ++ other) := by
    have hquery := not_mem_keyOf fun segment hsegment => (hclean segment hsegment).2.2
    exact takeWhile_eq_self_iff.2 fun c hc => decide_eq_true fun heq => hquery (heq ▸ hc)
  have hsegments : ((keyOf (kept ++ other)).splitOn '/').filter (· ≠ []) = kept ++ other := by
    rw [splitOn_keyOf fun segment hsegment => (hclean segment hsegment).2.1,
      filter_cons_of_neg (by simp), filter_eq_self]
    exact fun segment hsegment => decide_eq_true (hclean segment hsegment).1.ne_nil
  have hnormalized : normalizeSegments [] 0 (kept ++ other) =
      normalizeSegments (keyOf kept) kept.length other := by
    have happend := normalizeSegments_append other hkept [] 0 (by rwa [Nat.zero_add]) hbytes
    rwa [nil_append, Nat.zero_add] at happend
  rw [normalizeRoute, hpath, hsegments, hnormalized]
  rcases hother with rfl | rfl
  · rw [append_nil] at hne ⊢
    simp [normalizeSegments, hne]
  · -- The last segment is cut off and put back, or there is room for it.
    have hkey : keyOf (kept ++ [":other".toList]) = keyOf kept ++ "/:other".toList := by
      simp [keyOf]
    have hplaceholder : normalizeSegment ":other".toList = ":other".toList := by decide
    have hlast : normalizeSegments (keyOf kept) kept.length [":other".toList] = (keyOf kept, true) ∨
        normalizeSegments (keyOf kept) kept.length [":other".toList] =
          (keyOf kept ++ "/:other".toList, false) := by
      rw [normalizeSegments, hplaceholder]
      split
      · exact .inl rfl
      · dsimp only
        split
        · exact .inl rfl
        · exact .inr rfl
    rw [hkey] at hne ⊢
    rcases hlast with hlast | hlast
    · simp only [hlast, ↓reduceIte, if_neg hne]
    · simp only [hlast, Bool.false_eq_true, ↓reduceIte, if_neg hne]

/-- Every key starts with a slash, has at most 256 bytes and no query, and does not
    depend on that of the target. It is the root, or has at most 17 segments, none of
    which is empty, long, or an identifier. Its key is itself. -/
theorem normalizeRoute_bounded (target : List Char) :
    ['/'] <+: normalizeRoute target ∧ byteLength (normalizeRoute target) ≤ 256 ∧
    '?' ∉ normalizeRoute target ∧
    (∀ other : List Char, other.takeWhile (· ≠ '?') = target.takeWhile (· ≠ '?') →
      normalizeRoute other = normalizeRoute target) ∧
    (normalizeRoute target = ['/'] ∨ ∃ segments,
      (normalizeRoute target).splitOn '/' = [] :: segments ∧ segments.length ≤ 17 ∧
        ∀ segment ∈ segments, Anonymous segment) ∧
    normalizeRoute (normalizeRoute target) = normalizeRoute target := by
  have hpath : ∀ other : List Char, other.takeWhile (· ≠ '?') = target.takeWhile (· ≠ '?') →
      normalizeRoute other = normalizeRoute target := fun other hother => by
    rw [normalizeRoute, normalizeRoute, targetPath, hother, targetPath]
  obtain ⟨kept, other, heq, hother, hclean, hkept, hlength, hbytes⟩ := normalizeRoute_eq target
  by_cases hnil : keyOf (kept ++ other) = []
  · rw [if_pos hnil] at heq
    rw [heq]
    exact ⟨prefix_rfl, by decide, by decide, heq ▸ hpath, .inl rfl, by decide⟩
  · rw [if_neg hnil] at heq
    rw [heq]
    have hkey : keyOf (kept ++ other) = keyOf kept ++ keyOf other := flatMap_append
    have hcount : other.length ≤ 1 ∧ byteLength (keyOf other) ≤ 7 := by
      rcases hother with rfl | rfl <;> decide
    refine ⟨?_, ?_, not_mem_keyOf fun segment hsegment => (hclean segment hsegment).2.2,
      heq ▸ hpath, .inr ⟨kept ++ other,
        splitOn_keyOf fun segment hsegment => (hclean segment hsegment).2.1, ?_,
        fun segment hsegment => (hclean segment hsegment).1⟩,
      normalizeRoute_keyOf hother hclean hkept hlength hbytes hnil⟩
    · obtain ⟨segment, segments, hcons⟩ := exists_cons_of_ne_nil
        (fun h => hnil (by rw [h]; rfl) : kept ++ other ≠ [])
      rw [hcons]
      exact ⟨_, rfl⟩
    · rw [hkey, byteLength, map_append, sum_append]
      exact Nat.add_le_add hbytes hcount.2
    · rw [length_append]
      exact Nat.add_le_add hlength hcount.1

end VpsGuard
