import Conduit.Policy.Basic
import Conduit.Proofs.Outcomes
import Conduit.Proofs.Tables
import Mathlib.Data.List.Induction
import Mathlib.Data.List.Perm.Basic

/-! Policies loaded from a directory in whatever order its files are listed. Of the files that name one organization
the last one stays, so the order is of no matter just when those files hold the same policy. -/
namespace Conduit.PolicyRegistry

/-! What is registered. -/

def ofPolicies (policies : List OrgPolicy) : PolicyRegistry := policies.foldl register {}

def last? (org : String) (policies : List OrgPolicy) : Option OrgPolicy :=
  policies.reverse.find? fun p => p.orgId = org

theorem lastAppend (org : String) (policies : List OrgPolicy) (p : OrgPolicy) :
    last? org (policies ++ [p]) = if p.orgId = org then some p else last? org policies := by
  rw [last?, List.reverse_append, List.reverse_singleton, List.singleton_append, List.find?_cons]
  by_cases same : p.orgId = org
  · simp [same]
  · simp [same, last?]

theorem lastFound (org : String) (policies : List OrgPolicy) :
    (∃ p, last? org policies = some p) ↔ ∃ p ∈ policies, p.orgId = org := by
  rw [← Option.isSome_iff_exists, last?, List.find?_isSome]
  simp

theorem lastMember {org : String} {policies : List OrgPolicy} {p : OrgPolicy} (found : last? org policies = some p) :
    p ∈ policies ∧ p.orgId = org :=
  ⟨List.mem_reverse.mp (List.mem_of_find?_eq_some found), by simpa using List.find?_some found⟩

theorem ofPoliciesAppend (policies : List OrgPolicy) (p : OrgPolicy) :
    ofPolicies (policies ++ [p]) = (ofPolicies policies).register p := by
  rw [ofPolicies, List.foldl_append]
  rfl

theorem registeredOrdered (policies : List OrgPolicy) : (ofPolicies policies).policies.Ordered := by
  induction policies using List.reverseRecOn with
  | nil => exact List.Pairwise.nil
  | append_singleton before p ih =>
    rw [ofPoliciesAppend, register]
    split
    · exact ih
    · exact Table.insertOrdered _ _ ih

theorem registeredPolicy (policies : List OrgPolicy) (org : String) :
    (ofPolicies policies).policies.get? org = if org = OrgPolicy.fallbackId then none else last? org policies := by
  induction policies using List.reverseRecOn with
  | nil => exact (ite_self _).symm
  | append_singleton before p ih =>
    rw [ofPoliciesAppend, register, lastAppend]
    split
    next fallback =>
      rw [ih, fallback]
      split
      next => rfl
      next other => rw [if_neg (Ne.symm other)]
    next own =>
      rw [Table.getInsert, ih]
      by_cases same : org = p.orgId
      · rw [if_pos same, if_pos same.symm, if_neg (same ▸ own)]
      · rw [if_neg same, if_neg (Ne.symm same)]

theorem registeredFallback (policies : List OrgPolicy) :
    (ofPolicies policies).fallback = (last? OrgPolicy.fallbackId policies).getD {} := by
  induction policies using List.reverseRecOn with
  | nil => rfl
  | append_singleton before p ih =>
    rw [ofPoliciesAppend, register, lastAppend]
    split
    next => rfl
    next => exact ih

theorem answered (policies : List OrgPolicy) (org : String) :
    (ofPolicies policies).get org = ((last? org policies).or (last? OrgPolicy.fallbackId policies)).getD {} := by
  rw [get, registeredPolicy, registeredFallback]
  split
  next fallback =>
    rw [fallback, Option.or_self]
    rfl
  next => cases last? org policies <;> rfl

theorem registeredNames (policies : List OrgPolicy) (org : String) :
    org ∈ (ofPolicies policies).policies.names ↔ org ≠ OrgPolicy.fallbackId ∧ ∃ p ∈ policies, p.orgId = org := by
  rw [← Table.getSome, registeredPolicy, ← lastFound]
  by_cases fallback : org = OrgPolicy.fallbackId
  · simp [fallback]
  · simp [fallback]

theorem sizeOfPerm {one other : List OrgPolicy} (reordered : one.Perm other) :
    (ofPolicies one).size = (ofPolicies other).size := by
  have distinct (policies : List OrgPolicy) : (ofPolicies policies).policies.names.Nodup :=
    List.pairwise_map.mpr ((registeredOrdered policies).imp String.ne_of_lt)
  have named : (ofPolicies one).policies.names.Perm (ofPolicies other).policies.names := by
    refine (List.perm_ext_iff_of_nodup (distinct one) (distinct other)).mpr fun org => ?_
    simp only [registeredNames, reordered.mem_iff]
  simpa [size, Table.names] using named.length_eq

theorem answeredAlike {one other : List OrgPolicy} (same : ∀ org, last? org one = last? org other) (org : String) :
    (ofPolicies one).get org = (ofPolicies other).get org := by
  rw [answered, answered, same, same]

theorem lastOfPerm {one other : List OrgPolicy} (reordered : one.Perm other)
    (unanimous : ∀ p ∈ one, ∀ q ∈ one, p.orgId = q.orgId → p = q) (org : String) : last? org one = last? org other := by
  have named := (lastFound org one).trans (Iff.trans (by simp only [reordered.mem_iff]) (lastFound org other).symm)
  cases first : last? org one with
  | none =>
    refine (Option.eq_none_iff_forall_ne_some.mpr fun q found => ?_).symm
    obtain ⟨p, here⟩ := named.mpr ⟨q, found⟩
    rw [here] at first
    cases first
  | some p =>
    obtain ⟨q, found⟩ := named.mp ⟨p, first⟩
    obtain ⟨inFirst, ofFirst⟩ := lastMember first
    obtain ⟨inSecond, ofSecond⟩ := lastMember found
    rw [found, unanimous p inFirst q (reordered.mem_iff.mpr inSecond) (ofFirst.trans ofSecond.symm)]

/-! What is loaded. -/

def policyAt? (files : FileTree) (dir name : String) : Option OrgPolicy :=
  if (FileTree.jsonStem? name).isNone then none
  else (files.readText (FileTree.join dir name)).toOption.bind fun text => (OrgPolicy.reader.parse text).toOption

def Legible (files : FileTree) (dir name : String) : Prop :=
  (FileTree.jsonStem? name).isSome → ∃ text, files.readText (FileTree.join dir name) = .ok text

variable {files : FileTree} {dir : String}

theorem loadLegible {names : List String} (legible : ∀ name ∈ names, Legible files dir name) (r : PolicyRegistry) :
    loadFiles files dir r names = .ok ((names.filterMap (policyAt? files dir)).foldl register r) := by
  induction names generalizing r with
  | nil => rfl
  | cons name rest ih =>
    obtain ⟨here, later⟩ := List.forall_mem_cons.mp legible
    rw [loadFiles, List.filterMap_cons, policyAt?]
    split
    next => exact ih later r
    next looked =>
      obtain ⟨text, read⟩ := here (Option.isSome_iff_ne_none.mpr (by simpa using looked))
      rw [read]
      simp only [bind, Except.bind, Except.toOption, Option.bind]
      cases parsed : OrgPolicy.reader.parse text with
      | ok p => exact ih later (r.register p)
      | error e => exact ih later r

theorem loadIllegible {names : List String} {name : String} (member : name ∈ names)
    (illegible : ¬ Legible files dir name) (r : PolicyRegistry) : ∃ e, loadFiles files dir r names = .error e := by
  induction names generalizing r with
  | nil => cases member
  | cons head rest ih =>
    rw [loadFiles]
    split
    next skipped =>
      refine ih ((List.mem_cons.mp member).resolve_left ?_) r
      rintro rfl
      exact illegible fun looked => absurd looked (by simpa using skipped)
    next =>
      cases read : files.readText (FileTree.join dir head) with
      | error e => exact ⟨e, rfl⟩
      | ok text =>
        have later : name ∈ rest := (List.mem_cons.mp member).resolve_left fun same =>
          illegible fun _ => ⟨text, same ▸ read⟩
        simp only [bind, Except.bind]
        split
        · exact ih later _
        · exact ih later _

/-! Two orders. -/

inductive EndAlike (R : PolicyRegistry → PolicyRegistry → Prop) :
    Except FileError PolicyRegistry → Except FileError PolicyRegistry → Prop
  | loaded {a b : PolicyRegistry} (alike : R a b) : EndAlike R (.ok a) (.ok b)
  | refused {e e' : FileError} : EndAlike R (.error e) (.error e')

def InAnyOrder (R : PolicyRegistry → PolicyRegistry → Prop) (files : FileTree) (dir : String) (names : List String) :
    Prop :=
  ∀ one other : List String, one.Perm names → other.Perm names →
    EndAlike R (loadFiles files dir {} one) (loadFiles files dir {} other)

def AnswerAlike (a b : PolicyRegistry) : Prop := (∀ org, a.get org = b.get org) ∧ a.size = b.size

def Unanimous (files : FileTree) (dir : String) (names : List String) : Prop :=
  ∀ a ∈ names, ∀ b ∈ names, ∀ p q, policyAt? files dir a = some p → policyAt? files dir b = some q →
    p.orgId = q.orgId → p = q

theorem inAnyOrder {R : PolicyRegistry → PolicyRegistry → Prop} {names : List String}
    (alike : (∀ name ∈ names, Legible files dir name) → ∀ one other : List String, one.Perm names → other.Perm names →
      R (ofPolicies (one.filterMap (policyAt? files dir))) (ofPolicies (other.filterMap (policyAt? files dir)))) :
    InAnyOrder R files dir names := by
  intro one other first second
  by_cases legible : ∀ name ∈ names, Legible files dir name
  · rw [loadLegible fun name member => legible name (first.mem_iff.mp member),
      loadLegible fun name member => legible name (second.mem_iff.mp member)]
    exact .loaded (alike legible one other first second)
  · obtain ⟨name, member, illegible⟩ : ∃ name ∈ names, ¬ Legible files dir name := by simpa using legible
    obtain ⟨_, failed⟩ := loadIllegible (first.mem_iff.mpr member) illegible {}
    obtain ⟨_, failed'⟩ := loadIllegible (second.mem_iff.mpr member) illegible {}
    rw [failed, failed']
    exact .refused

theorem listedLast {names : List String} {name : String} {p : OrgPolicy} (holds : policyAt? files dir name = some p) :
    (ofPolicies ((names ++ [name]).filterMap (policyAt? files dir))).get p.orgId = p := by
  rw [List.filterMap_append, List.filterMap_cons, holds, answered, List.filterMap_nil, lastAppend, if_pos rfl]
  rfl

theorem unanimousOfAnyOrder {names : List String} (alike : InAnyOrder AnswerAlike files dir names)
    (legible : ∀ name ∈ names, Legible files dir name) : Unanimous files dir names := by
  intro a first b second p q holds holds' same
  have toEnd {name : String} (member : name ∈ names) : (names.erase name ++ [name]).Perm names :=
    (List.perm_append_singleton _ _).trans (List.perm_cons_erase member).symm
  have ended := alike _ _ (toEnd first) (toEnd second)
  rw [loadLegible fun name member => legible name ((toEnd first).mem_iff.mp member),
    loadLegible fun name member => legible name ((toEnd second).mem_iff.mp member)] at ended
  cases ended with
  | loaded alike =>
    calc p = (ofPolicies _).get p.orgId := (listedLast holds).symm
      _ = (ofPolicies _).get p.orgId := alike.1 p.orgId
      _ = (ofPolicies _).get q.orgId := by rw [same]
      _ = q := listedLast holds'

theorem loadedInAnyOrder {names : List String} (there : files.fileExists dir = true)
    (listed : files.list dir = .ok names) :
    load files dir = loadFiles files dir {} names ∧
    InAnyOrder (fun a b => a.size = b.size) files dir names ∧
    (InAnyOrder AnswerAlike files dir names ↔
      ((∀ name ∈ names, Legible files dir name) → Unanimous files dir names)) := by
  refine ⟨?_, inAnyOrder fun _ one other first second => ?_, unanimousOfAnyOrder,
    fun unanimous => inAnyOrder fun legible one other first second => ⟨?_, ?_⟩⟩
  · rw [load, if_pos there, listed]
    rfl
  · exact sizeOfPerm ((first.trans second.symm).filterMap _)
  · refine answeredAlike (lastOfPerm ((first.trans second.symm).filterMap _) fun p memberP q memberQ same => ?_)
    obtain ⟨a, inFirst, holds⟩ := List.mem_filterMap.mp memberP
    obtain ⟨b, inSecond, holds'⟩ := List.mem_filterMap.mp memberQ
    exact unanimous legible a (first.mem_iff.mp inFirst) b (first.mem_iff.mp inSecond) p q holds holds' same
  · exact sizeOfPerm ((first.trans second.symm).filterMap _)

def policyFiles (documents : List (String × Json)) : FileTree where
  nodes := documents.map fun d => (["policies", d.1], .file (Text.utf8 d.2.compact))

def policyOf (org : String) (most : Nat) : Json := .ofPairs [("orgId", .str org), ("maxStages", .nat most)]

def agreed : FileTree :=
  policyFiles [("a.json", policyOf "acme" 1), ("b.json", policyOf "default" 2), ("c.json", policyOf "acme" 1)]

theorem agreedInAnyOrder :
    InAnyOrder AnswerAlike agreed "policies" ["a.json", "b.json", "c.json"]
    ∧ ∃ r, load agreed "policies" = .ok r ∧ (r.get "acme").maxStages = 1 ∧ (r.get "other").maxStages = 2 := by
  have there : agreed.fileExists "policies" = true := by decide +kernel
  have listed : agreed.list "policies" = .ok ["a.json", "b.json", "c.json"] := by decide +kernel
  obtain ⟨loads, -, whenUnanimous⟩ := loadedInAnyOrder there listed
  have unanimous : ∀ a ∈ ["a.json", "b.json", "c.json"], ∀ b ∈ ["a.json", "b.json", "c.json"],
      ∀ p ∈ policyAt? agreed "policies" a, ∀ q ∈ policyAt? agreed "policies" b, p.orgId = q.orgId → p = q := by
    decide +kernel
  have answers : (loadFiles agreed "policies" {} ["a.json", "b.json", "c.json"]).toOption.any fun r =>
      (r.get "acme").maxStages = 1 ∧ (r.get "other").maxStages = 2 := by decide +kernel
  obtain ⟨r, loaded, answers⟩ := Outcome.okOfAny answers
  exact ⟨whenUnanimous.mpr fun _ a first b second p q holds holds' => unanimous a first b second p holds q holds',
    r, loads.trans loaded, by simpa using answers⟩

def rival : FileTree := policyFiles [("a.json", policyOf "acme" 1), ("b.json", policyOf "acme" 2)]

theorem rivalByOrder : ¬ ∀ (files : FileTree) (dir : String) (names : List String), files.fileExists dir = true →
    files.list dir = .ok names → InAnyOrder AnswerAlike files dir names := by
  intro alike
  have there : rival.fileExists "policies" = true := by decide +kernel
  have listed : rival.list "policies" = .ok ["a.json", "b.json"] := by decide +kernel
  have one : (loadFiles rival "policies" {} ["a.json", "b.json"]).toOption.any fun r =>
      (r.get "acme").maxStages = 2 := by decide +kernel
  have other : (loadFiles rival "policies" {} ["b.json", "a.json"]).toOption.any fun r =>
      (r.get "acme").maxStages = 1 := by decide +kernel
  obtain ⟨r, loaded, most⟩ := Outcome.okOfAny one
  obtain ⟨r', loaded', most'⟩ := Outcome.okOfAny other
  have ended := alike rival "policies" _ there listed _ _ (.refl _) (.swap "a.json" "b.json" [])
  rw [loaded, loaded'] at ended
  cases ended with
  | loaded same =>
    rw [decide_eq_true_eq, same.1] at most
    exact absurd (most.symm.trans (decide_eq_true_eq.mp most')) (by decide)

end Conduit.PolicyRegistry
