import VpsGuard.System.Operation
import VpsGuard.System.UfwGrammar

/-!
# What is owned

A plan of changes, and the resources that a snapshot keeps, may only name paths
that belong to the guard. Some checks compare texts, and some compare components.
What counts is where a path leads (`Path.resolve`): a check is kept (`Domain.Owns`)
if this is a file of its list, or below a directory of its list.

Without `..`, only the directories of the list themselves escape a check. With `..`, a
path has to come to the list at some point and to stay there (`Domain.Stays`); this is
exact (`ownership_kept`). `ownership_escaped` has paths that do not.
-/

namespace VpsGuard

open List Path

/-! ## Plans of changes -/

/-- A file that is to be changed. -/
inductive PlannedChange
  | writeOwnedFile (path : String)
  | restartOwnedService (unit : String)
  | validateNginxCandidate (path : String)

/-- What is shown before anything is changed. -/
structure MutationPlan where
  schemaVersion : ℕ
  changes : List PlannedChange
  preserve : List String

/-- Why a change is refused. -/
inductive PlanError
  | unsupportedSchema (version : ℕ)
  | foreignPath (path : String)
  | foreignService (unit : String)
  | missingPreservation (item : String)
  deriving DecidableEq

def PlannedChange.validate : PlannedChange → Except PlanError Unit
  | writeOwnedFile path =>
    if ["/etc/vps-guard/", "/var/lib/vps-guard/", "/run/vps-guard/",
        "/etc/systemd/system/vps-guard-"].any (fun start => start.toList.isPrefixOf path.toList) then
      .ok ()
    else .error (.foreignPath path)
  | restartOwnedService unit =>
    if Text.startsWith "vps-guard-".toList unit.toList ∧
        Text.endsWith ".service".toList unit.toList then .ok ()
    else .error (.foreignService unit)
  | validateNginxCandidate path =>
    if startsWith path "/etc/vps-guard/nginx/" then .ok () else .error (.foreignPath path)

def MutationPlan.validate (plan : MutationPlan) : Except PlanError Unit :=
  if plan.schemaVersion ≠ 1 then .error (.unsupportedSchema plan.schemaVersion)
  else do
    ["ssh", "certificates", "site-data"].forM fun required =>
      if required ∈ plan.preserve then .ok () else .error (.missingPreservation required)
    plan.changes.forM PlannedChange.validate

/-! ## Where paths lead -/

namespace Path

/-- Where a path leads, one component at a time. -/
def descend (names : List (List Char)) : Component → List (List Char)
  | .rootDir => []
  | .curDir => names
  | .parentDir => names.dropLast
  | .normal name => names ++ [name]

/-- The names on the way from the root, with `.` and `..` followed. -/
def resolve (path : String) : List (List Char) := (components path).foldl descend []

theorem foldl_descend (before names : List (List Char)) :
    (names.map .normal).foldl descend before = before ++ names := by
  induction names generalizing before with
  | nil => simp
  | cons name names ih => simp [descend, ih]

/-- Along the components no more `..` are followed than names, `depth` of which came before. -/
def stays : ℕ → List Component → Prop
  | _, [] => True
  | depth, .normal _ :: rest => stays (depth + 1) rest
  | depth + 1, .parentDir :: rest => stays depth rest
  | 0, .parentDir :: _ => False
  | depth, .curDir :: rest => stays depth rest
  | _, .rootDir :: _ => False

variable {names : List (List Char)}

theorem prefix_of_stays {below : List (List Char)} {rest : List Component}
    (h : stays below.length rest) : names <+: rest.foldl descend (names ++ below) := by
  induction rest generalizing below with
  | nil => exact prefix_append _ _
  | cons component rest ih =>
    rw [foldl_cons]
    cases component with
    | normal name =>
      rw [descend, append_assoc]
      exact ih (by rwa [length_append])
    | parentDir =>
      rcases eq_nil_or_concat' below with rfl | ⟨below, name, rfl⟩
      · exact h.elim
      · rw [descend, ← append_assoc, dropLast_concat]
        rw [length_append] at h
        exact ih h
    | curDir => exact ih h
    | rootDir => exact h.elim

/-- What leads below some names was there at some point and stayed. -/
theorem exists_of_prefix {stack : List (List Char)} {path : List Component}
    (h : names <+: path.foldl descend stack) :
    (∃ below, stack = names ++ below ∧ stays below.length path) ∨ ∃ before after, path = before ++
      after ∧ before.foldl descend stack = names ∧ stays 0 after := by
  induction path generalizing stack with
  | nil =>
    obtain ⟨below, hbelow⟩ := h
    exact .inl ⟨below, hbelow.symm, trivial⟩
  | cons component path ih =>
    rcases ih h with ⟨below, hbelow, hstays⟩ | ⟨before, after, rfl, hnames, hstays⟩
    · -- The names are reached with this component, or were reached before.
      rcases eq_nil_or_concat' below with rfl | ⟨upper, last, rfl⟩
      · rw [append_nil] at hbelow
        exact .inr ⟨[component], path, rfl, hbelow, hstays⟩
      cases component with
      | normal name =>
        rw [descend, ← append_assoc] at hbelow
        obtain ⟨rfl, -⟩ := append_inj' hbelow rfl
        rw [length_append] at hstays
        exact .inl ⟨upper, rfl, hstays⟩
      | parentDir =>
        rcases eq_nil_or_concat' stack with rfl | ⟨stack, name, rfl⟩
        · rw [descend, dropLast_nil, ← append_assoc] at hbelow
          exact absurd hbelow.symm (append_ne_nil_of_right_ne_nil _ (cons_ne_nil _ _))
        · rw [descend, dropLast_concat] at hbelow
          refine .inl ⟨upper ++ [last] ++ [name], by rw [hbelow, append_assoc], ?_⟩
          rw [length_append]
          exact hstays
      | curDir => exact .inl ⟨_, hbelow, hstays⟩
      | rootDir =>
        rw [descend, ← append_assoc] at hbelow
        exact absurd hbelow.symm (append_ne_nil_of_right_ne_nil _ (cons_ne_nil _ _))
    · exact .inr ⟨component :: before, after, rfl, hnames, hstays⟩

theorem prefix_resolve_iff {path : String} :
    names <+: resolve path ↔ ∃ before after, components path = before ++ after ∧ before.foldl
      descend [] = names ∧ stays 0 after := by
  constructor
  · intro h
    rcases exists_of_prefix h with ⟨below, hbelow, hstays⟩ | h
    · obtain ⟨rfl, rfl⟩ := append_eq_nil_iff.1 hbelow.symm
      exact ⟨[], _, rfl, rfl, hstays⟩
    · exact h
  · rintro ⟨before, after, hpath, rfl, hstays⟩
    have hprefix : before.foldl descend [] <+: after.foldl descend (before.foldl descend [] ++ []) :=
      prefix_of_stays hstays
    rwa [append_nil, ← foldl_append, ← hpath] at hprefix

theorem components_eq {path : String} (hroot : .rootDir ∈ components path)
    (hup : .parentDir ∉ components path) :
    components path = .rootDir :: (resolve path).map .normal := by
  obtain ⟨first, names, hnames, hfirst⟩ : ∃ first names, components path =
      first ++ List.map Component.ofName names ∧ (first = [.rootDir] ∨ .rootDir ∉ first) := by
    rw [components]
    exact ⟨_, _, rfl, by split_ifs <;> simp⟩
  have hnormal : ∀ name ∈ names, Component.ofName name = .normal name := by
    intro name hname
    refine if_neg fun heq => hup ?_
    rw [hnames, mem_append, mem_map]
    exact .inr ⟨name, hname, if_pos heq⟩
  rw [map_congr_left hnormal] at hnames
  have hrooted : first = [.rootDir] := by
    rw [hnames, mem_append, mem_map] at hroot
    exact hfirst.resolve_right fun hnot => (hroot.resolve_left hnot).elim nofun
  rw [resolve, hnames, hrooted, foldl_append, foldl_cons, foldl_nil, descend, foldl_descend]
  rfl

theorem components_append {path : String} (start : String) {a b : List Char}
    (hstart : isAbsolute start) (ha : start.toList = a ++ ['/'])
    (hpath : path.toList = start.toList ++ b) :
    components path = components start ++
      (((b.splitOn '/').filter (· ≠ [])).filter (· ≠ ['.'])).map .ofName := by
  have habsolute : isAbsolute path := by
    rw [isAbsolute, decide_eq_true_eq] at hstart ⊢
    rw [hpath, head?_append, hstart, Option.some_or]
  have hempty : [].splitOn '/' = [[]] := rfl
  rw [ha, append_assoc, singleton_append] at hpath
  rw [components, components, if_pos habsolute, if_pos hstart, hpath, ha,
    splitOn_append_cons_self, splitOn_append_cons_self, hempty]
  simp

theorem startsWith_of_text {path dir : String} (hdir : isAbsolute dir)
    (hlast : dir.toList.getLast? = some '/') (h : dir.toList.isPrefixOf path.toList) :
    startsWith path dir := by
  obtain ⟨b, hb⟩ := isPrefixOf_iff_prefix.1 h
  have ha := (dropLast_append_getLast? '/' hlast).symm
  refine isPrefixOf_iff_prefix.2 ?_
  rw [components_append dir hdir ha hb.symm]
  exact prefix_append _ _

end Path

/-! ## Domains -/

/-- The paths of the list of a check. -/
structure Domain where
  files : List String
  directories : List String
  /-- The units of the guard are on the list. -/
  units : Bool
  plain : ∀ path ∈ files ++ directories,
    components path = .rootDir :: (resolve path).map .normal

namespace Domain

variable (D : Domain) (path : String)

/-- The names of a directory of the list, or of a unit of the guard. -/
def Place (names : List (List Char)) : Prop :=
  (∃ dir ∈ D.directories, names = resolve dir) ∨
    D.units ∧ ∃ name, names = resolve "/etc/systemd/system/" ++ ["vps-guard-".toList ++ name]

/-- The path leads to a file of the list, or strictly below one of its directories. -/
def Owns : Prop :=
  ((∃ file ∈ D.files, resolve path = resolve file) ∨
    ∃ names, D.Place names ∧ names <+: resolve path) ∧
  ∀ dir ∈ D.directories, resolve path ≠ resolve dir

/-- At some point the path comes to a place of the list, and from there on it has at no point
    more `..` than names. -/
def Stays : Prop :=
  ∃ before after, components path = before ++ after ∧
    D.Place (before.foldl descend []) ∧ stays 0 after

/-- What the checks have in common. -/
def Accepts : Prop :=
  path ∈ D.files ∨ (∃ dir ∈ D.directories, startsWith path dir) ∨
    D.units ∧ "/etc/systemd/system/vps-guard-".toList.isPrefixOf path.toList

variable {D path}

theorem components_unit (h : "/etc/systemd/system/vps-guard-".toList.isPrefixOf path.toList) :
    ∃ name rest, components path = components "/etc/systemd/system/" ++
      .normal ("vps-guard-".toList ++ name) :: rest := by
  obtain ⟨b, hb⟩ := isPrefixOf_iff_prefix.1 h
  have hstart : "/etc/systemd/system/vps-guard-".toList =
      "/etc/systemd/system/".toList ++ "vps-guard-".toList := by decide
  rw [hstart, append_assoc] at hb
  have hpath := components_append "/etc/systemd/system/" (a := "/etc/systemd/system".toList)
    (by decide) (by decide) hb.symm
  obtain ⟨name, rest, hsplit⟩ :=
    Text.splitOn_append (b := b) (by decide : '/' ∉ "vps-guard-".toList)
  have hfirst : "vps-guard-".toList ++ name = 'v' :: ("ps-guard-".toList ++ name) := rfl
  rw [hsplit, hfirst, filter_cons_of_pos (by simp), filter_cons_of_pos (by simp),
    map_cons, Component.ofName, if_neg (by simp)] at hpath
  exact ⟨name, _, hpath⟩

theorem accepts_of_text (h : (D.directories ++ ["/etc/systemd/system/vps-guard-"]).any
      (fun start => start.toList.isPrefixOf path.toList))
    (hunits : D.units) (hlast : ∀ dir ∈ D.directories,
      isAbsolute dir ∧ dir.toList.getLast? = some '/') : D.Accepts path := by
  rw [any_append, Bool.or_eq_true, any_eq_true] at h
  rcases h with ⟨dir, hdir, h⟩ | h
  · obtain ⟨habsolute, hslash⟩ := hlast dir hdir
    exact .inr (.inl ⟨dir, hdir, startsWith_of_text habsolute hslash h⟩)
  · rw [any_cons, any_nil, Bool.or_false] at h
    exact .inr (.inr ⟨hunits, h⟩)

theorem owns_of_accepts (h : D.Accepts path) (hup : .parentDir ∉ components path)
    (hdirs : ∀ dir ∈ D.directories, resolve path ≠ resolve dir) : D.Owns path := by
  have hplain (dir : String) (hdir : dir ∈ D.directories) :=
    D.plain dir (mem_append_right _ hdir)
  have hnames (names : List (List Char)) :
      (Component.rootDir :: names.map .normal).filterMap Component.name? = names := by
    rw [filterMap_cons_none rfl, filterMap_map]
    exact filterMap_some
  have hroot : .rootDir ∈ components path := by
    rcases h with h | ⟨dir, hdir, h⟩ | ⟨-, h⟩
    · rw [D.plain path (mem_append_left _ h)]
      exact mem_cons_self
    · refine (List.isPrefixOf_iff_prefix.1 h).subset ?_
      rw [hplain dir hdir]
      exact mem_cons_self
    · obtain ⟨name, rest, hunit⟩ := components_unit h
      rw [hunit]
      exact mem_append_left _ mem_cons_self
  have hpath := components_eq hroot hup
  refine ⟨?_, hdirs⟩
  rcases h with h | ⟨dir, hdir, h⟩ | ⟨hunits, h⟩
  · exact .inl ⟨path, h, rfl⟩
  · have hbelow := (List.isPrefixOf_iff_prefix.1 h).filterMap Component.name?
    rw [hpath, hplain dir hdir, hnames, hnames] at hbelow
    exact .inr ⟨_, .inl ⟨dir, hdir, rfl⟩, hbelow⟩
  · obtain ⟨name, rest, hunit⟩ := components_unit h
    have hresolve := congrArg (List.filterMap Component.name?) hunit
    rw [hpath, hnames, filterMap_append] at hresolve
    refine .inr ⟨_, .inr ⟨hunits, name, rfl⟩, rest.filterMap Component.name?, ?_⟩
    rw [hresolve, append_assoc]
    rfl

/-- Without files on the list, it is owned what stays. -/
theorem owns_iff_stays (hfiles : D.files = []) :
    D.Owns path ↔ D.Stays path ∧ ∀ dir ∈ D.directories, resolve path ≠ resolve dir := by
  refine and_congr_left fun _ => ?_
  rw [hfiles]
  refine (or_iff_right fun ⟨_, hfile, _⟩ => by cases hfile).trans ?_
  simp only [prefix_resolve_iff, Stays]
  constructor
  · rintro ⟨_, hplace, before, after, hpath, rfl, hstays⟩
    exact ⟨before, after, hpath, hplace, hstays⟩
  · rintro ⟨before, after, hpath, hplace, hstays⟩
    exact ⟨_, hplace, before, after, hpath, rfl, hstays⟩

end Domain

/-- The path of a change, and the list that its check has. -/
def PlannedChange.domain? : PlannedChange → Option (String × Domain)
  | writeOwnedFile path =>
    some (path, ⟨[], ["/etc/vps-guard/", "/var/lib/vps-guard/", "/run/vps-guard/"], true, by decide⟩)
  | restartOwnedService _ => none
  | validateNginxCandidate path => some (path, ⟨[], ["/etc/vps-guard/nginx/"], false, by decide⟩)

/-- The path of a resource that is read and written, and the list that its check has. -/
def SnapshotResource.domain? : SnapshotResource → Option (String × Domain)
  | ownedPath path =>
    some (path, ⟨["/usr/local/bin/vps-guard", "/usr/local/bin/vps-guard-control",
      "/usr/local/bin/vps-guard-privileged", "/usr/local/bin/vps-guard-edge",
      "/usr/local/lib/vps-guard/current", "/usr/lib/tmpfiles.d/vps-guard.conf",
      "/etc/pam.d/vps-guard", "/etc/letsencrypt/renewal-hooks/deploy/vps-guard"],
      ["/etc/vps-guard/", "/var/lib/vps-guard/", "/run/vps-guard/",
        "/usr/local/libexec/vps-guard/"], true, by decide⟩)
  | ingressFile path =>
    some (path, ⟨[], ["/etc/nginx/sites-available/", "/etc/nginx/sites-enabled/",
      "/etc/nginx/conf.d/"], false, by decide⟩)
  | ingressSymlink path => some (path, ⟨[], ["/etc/nginx/sites-enabled/"], false, by decide⟩)
  | apacheIngressFile path =>
    some (path, ⟨[], ["/etc/apache2/sites-available/", "/etc/apache2/sites-enabled/",
      "/etc/apache2/conf-available/", "/etc/apache2/conf-enabled/"], false, by decide⟩)
  | apacheIngressSymlink path =>
    some (path, ⟨[], ["/etc/apache2/sites-enabled/", "/etc/apache2/conf-enabled/",
      "/etc/apache2/mods-enabled/"], false, by decide⟩)
  | _ => none

variable {path : String} {change : PlannedChange} {D : Domain}

theorem PlannedChange.accepts (h : change.validate = .ok ())
    (hD : change.domain? = some (path, D)) : D.Accepts path := by
  cases change with
  | restartOwnedService unit => cases hD
  | writeOwnedFile path =>
    cases hD
    rw [validate] at h
    split at h
    · next hany => exact Domain.accepts_of_text hany rfl (by decide)
    · cases h
  | validateNginxCandidate path =>
    cases hD
    rw [validate] at h
    split at h
    · next hstart => exact .inr (.inl ⟨_, mem_cons_self, hstart⟩)
    · cases h

theorem PlannedChange.files_eq
    (hD : change.domain? = some (path, D)) : D.files = [] := by
  cases change <;> cases hD <;> rfl

theorem of_validatePath {allowed : Bool} (h : validatePath path allowed = .ok ()) :
    .parentDir ∉ components path ∧ allowed = true := by
  obtain ⟨_, hfile, hallowed⟩ := bind_eq_ok.1 h
  rw [validateAbsoluteFile] at hfile
  split at hfile
  · next hvalid =>
    refine ⟨hvalid.2.2.1, ?_⟩
    cases allowed
    · cases hallowed
    · rfl
  · cases hfile

theorem SnapshotResource.accepts {resource : SnapshotResource} (h : resource.validate = .ok ())
    (hD : resource.domain? = some (path, D)) : .parentDir ∉ components path ∧ D.Accepts path := by
  have hany {dirs : List String} {path : String} (h : dirs.any (startsWith path)) :
      ∃ dir ∈ dirs, startsWith path dir := any_eq_true.1 h
  cases resource with
  | ownedPath path =>
    cases hD
    rw [validate, validateOwnedPath] at h
    refine (of_validatePath h).imp_right fun hallowed => ?_
    rcases Bool.or_eq_true_iff.1 hallowed with hstart | hfile
    · exact Domain.accepts_of_text hstart rfl (by decide)
    · exact .inl (of_decide_eq_true hfile)
  | ingressFile path =>
    cases hD
    exact (of_validatePath h).imp_right fun hallowed => .inr (.inl (hany hallowed))
  | ingressSymlink path =>
    cases hD
    exact (of_validatePath h).imp_right fun hallowed =>
      .inr (.inl ⟨_, mem_cons_self, hallowed⟩)
  | apacheIngressFile path =>
    cases hD
    exact (of_validatePath h).imp_right fun hallowed => .inr (.inl (hany hallowed))
  | apacheIngressSymlink path =>
    cases hD
    exact (of_validatePath h).imp_right fun hallowed => .inr (.inl (hany hallowed))
  | _ => cases hD

theorem of_forM_ok {ε α : Type} {f : α → Except ε Unit} {l : List α} (h : l.forM f = .ok ()) :
    ∀ a ∈ l, f a = .ok () := by
  induction l with
  | nil => exact forall_mem_nil _
  | cons a l ih =>
    obtain ⟨_, ha, hl⟩ := bind_eq_ok.1 (h : f a >>= (fun _ => l.forM f) = .ok ())
    exact forall_mem_cons.2 ⟨ha, ih hl⟩

/-- What passes a check is owned, unless it leads to a directory of the list or, for a change,
    a way up in it leads out of the list. -/
theorem ownership_kept (path : String) (D : Domain) :
    (∀ plan : MutationPlan, plan.validate = .ok () → ∀ change ∈ plan.changes,
      change.domain? = some (path, D) → (D.Owns path ↔
        (∀ dir ∈ D.directories, resolve path ≠ resolve dir) ∧
          (.parentDir ∈ components path → D.Stays path))) ∧
    ∀ resource : SnapshotResource, resource.validate = .ok () →
      resource.domain? = some (path, D) → (D.Owns path ↔
        ∀ dir ∈ D.directories, resolve path ≠ resolve dir) := by
  constructor
  · intro plan hplan change hchange hD
    rw [MutationPlan.validate] at hplan
    split at hplan
    · cases hplan
    obtain ⟨_, -, hchanges⟩ := bind_eq_ok.1 hplan
    have haccepts := PlannedChange.accepts (of_forM_ok hchanges change hchange) hD
    constructor
    · intro howns
      exact ⟨howns.2, fun _ => ((Domain.owns_iff_stays (PlannedChange.files_eq hD)).1 howns).1⟩
    · rintro ⟨hdirs, hstays⟩
      by_cases hup : .parentDir ∈ components path
      · exact (Domain.owns_iff_stays (PlannedChange.files_eq hD)).2 ⟨hstays hup, hdirs⟩
      · exact Domain.owns_of_accepts haccepts hup hdirs
  · intro resource hresource hD
    obtain ⟨hup, haccepts⟩ := SnapshotResource.accepts hresource hD
    exact ⟨fun howns => howns.2, Domain.owns_of_accepts haccepts hup⟩

def planOf (change : PlannedChange) : MutationPlan :=
  ⟨1, [change], ["ssh", "certificates", "site-data"]⟩

/-- A way up may stay in the directory. -/
theorem ownership_kept_config :
    (∃ D, (PlannedChange.writeOwnedFile "/etc/vps-guard/a/../b").domain? =
      some ("/etc/vps-guard/a/../b", D) ∧ D.Owns "/etc/vps-guard/a/../b") ∧
    ∃ D, (SnapshotResource.ingressFile "/etc/nginx/conf.d/site.conf").domain? =
      some ("/etc/nginx/conf.d/site.conf", D) ∧ D.Owns "/etc/nginx/conf.d/site.conf" := by
  refine ⟨⟨_, rfl, ((ownership_kept _ _).1 (planOf (.writeOwnedFile "/etc/vps-guard/a/../b"))
      (by decide) _ mem_cons_self rfl).2 ⟨by decide, fun _ => ?_⟩⟩,
    _, rfl, ((ownership_kept _ _).2 (.ingressFile "/etc/nginx/conf.d/site.conf")
      (by decide) rfl).2 (by decide)⟩
  exact ⟨components "/etc/vps-guard/", [.normal ['a'], .parentDir, .normal ['b']], by decide,
    .inl ⟨_, mem_cons_self, rfl⟩, trivial⟩

/-- A way up leads out of the directory, and each kind of check accepts a directory itself. -/
theorem ownership_escaped :
    (planOf (.writeOwnedFile "/etc/vps-guard/../passwd")).validate = .ok () ∧
      resolve "/etc/vps-guard/../passwd" = ["etc".toList, "passwd".toList] ∧
    (planOf (.validateNginxCandidate "/etc/vps-guard/nginx/../../passwd")).validate = .ok () ∧
      resolve "/etc/vps-guard/nginx/../../passwd" = ["etc".toList, "passwd".toList] ∧
    (SnapshotResource.ownedPath "/etc/vps-guard/").validate = .ok () ∧
      resolve "/etc/vps-guard/" = ["etc".toList, "vps-guard".toList] ∧
    (SnapshotResource.ingressFile "/etc/nginx/conf.d").validate = .ok () ∧
      resolve "/etc/nginx/conf.d" = resolve "/etc/nginx/conf.d/" := by
  decide

end VpsGuard
