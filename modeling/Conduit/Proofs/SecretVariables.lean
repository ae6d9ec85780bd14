import Conduit.Proofs.CheckedParameters
import Conduit.Proofs.ServedSecrets
import Conduit.Proofs.ValidDocuments

/-! The variables that secrets are read from. The search for a free name always ends, each credential has a variable and
a reference of its own, and the variable is named for the credential's path, so that its placeholder is known for one
wherever it turns up. -/
namespace Conduit

/-! Names of variables. -/

namespace Secret

theorem envCharKnown (c : Char) : (envChar c).isUpper ∨ (envChar c).isDigit ∨ envChar c = '_' := by
  by_cases plain : c.isAlphanum = true
  · have ascii : ∀ n < 128, (envChar (Char.ofNat n)).isUpper ∨ (envChar (Char.ofNat n)).isDigit
        ∨ envChar (Char.ofNat n) = '_' := by decide
    have bounds := alphanumBounds plain
    have known := ascii c.toNat (by omega)
    rwa [Char.ofNat_toNat] at known
  · rw [envChar, if_neg plain]
    exact .inr (.inr rfl)

theorem numberedDeferred {path env : String} (filled : path ≠ "")
    (numbered : CredentialsMap.Numbered (envName path) env) : Deferred (placeholder env) := by
  have chars : path.toList.map envChar ≠ [] := fun none => filled (String.toList_eq_nil_iff.mp (List.map_eq_nil_iff.mp none))
  have known : ∀ c ∈ path.toList.map envChar, c.isUpper ∨ c.isDigit ∨ c = '_' := fun c member => by
    obtain ⟨d, -, rfl⟩ := List.mem_map.mp member
    exact envCharKnown d
  rcases numbered with rfl | ⟨n, -, rfl⟩
  · exact ⟨_, chars, known, rfl⟩
  · have written : s!"{envName path}_{n}" = envName path ++ "_" ++ n.repr := rfl
    refine ⟨path.toList.map envChar ++ '_' :: Nat.toDigits 10 n, by simp, ?_, ?_⟩
    · refine List.forall_mem_append.mpr ⟨known, List.forall_mem_cons.mpr ⟨.inr (.inr rfl), fun c digit => ?_⟩⟩
      exact .inr (.inl (Nat.isDigit_of_mem_toDigits (by decide) (by decide) digit))
    · rw [written, ← String.toList_inj]
      simp [envName, placeholder, String.toList_append]

theorem placeholderCoerced (env : String) : Substitution.coerce (placeholder env) = .str (placeholder env) := by
  have chars : (placeholder env).toList = '$' :: '\x7b' :: (env.toList ++ ['\x7d']) := by
    simp [placeholder, String.toList_append]
  have other {s : String} (first : s.toList.head? ≠ some '$') : placeholder env ≠ s := by
    rintro rfl
    exact first (by rw [chars]; rfl)
  have untyped : Substitution.looksTyped (placeholder env).toList = false := by
    rw [chars]
    rfl
  rw [Substitution.coerce, if_neg (other (by decide)), if_neg (other (by decide)), if_neg (other (by decide)), untyped]
  rfl

end Secret

theorem Spot.dottedFilled (front back : String) : s!"{front}.{back}" ≠ "" := by
  show front ++ "." ++ back ≠ ""
  simp [String.append_eq_empty_iff]

theorem Spot.pathFilled {path : String} (filled : path ≠ "") (spot : Spot) : Spot.path path spot ≠ "" := by
  induction spot generalizing path with
  | nil => exact filled
  | cons inward rest ih =>
    cases inward with
    | item index => exact ih (dottedFilled path (toString index))
    | field name => exact ih (dottedFilled path name)

/-! The search for a name. -/

namespace CredentialsMap

inductive Settles (used : List String) (base : String) : String → Nat → String → Prop
  | free {name : String} {n : Nat} (new : name ∉ used) : Settles used base name n name
  | taken {name found : String} {n : Nat} (old : name ∈ used) (next : Settles used base s!"{base}_{n}" (n + 1) found) :
    Settles used base name n found

theorem foundSettles {used : List String} {base name found : String} {count n : Nat}
    (first : (name :: (List.range count).map fun i => s!"{base}_{i + n}").find? (fun name => !used.contains name)
      = some found) : Settles used base name n found := by
  induction count generalizing name n with
  | zero =>
    by_cases new : name ∈ used
    · simp [new] at first
    · obtain rfl : name = found := by simpa [new] using first
      exact .free new
  | succ count ih =>
    by_cases new : name ∈ used
    · refine .taken new (ih ?_)
      rw [List.find?_cons_of_neg (by simpa using new), List.range_succ_eq_map, List.map_cons, List.map_map] at first
      simpa [Function.comp_def, Nat.add_comm, Nat.add_left_comm] using first
    · obtain rfl : name = found := by simpa [new] using first
      exact .free new

theorem freshNameSettles (used : List String) (base : String) : Settles used base base 2 (freshName used base) :=
  foundSettles (freshNameFound used base)

theorem settlesOnce {used : List String} {base name a b : String} {n : Nat} (first : Settles used base name n a)
    (second : Settles used base name n b) : a = b := by
  induction first with
  | free new =>
    cases second with
    | free => rfl
    | taken old => exact absurd old new
  | taken old _ ih =>
    cases second with
    | free new => exact absurd old new
    | taken _ next => exact ih next

inductive Draft.Becomes : Draft → List SecretUse → Draft → Prop
  | done {d : Draft} : Becomes d [] d
  | known {d f : Draft} {use : SecretUse} {env : String} {rest : List SecretUse} (owned : d.owners.lookup use.2 = some env)
      (next : Becomes { d with map := { d.map with aliases := d.map.aliases.insert use.1 env } } rest f) :
    Becomes d (use :: rest) f
  | new {d f : Draft} {use : SecretUse} {env : String} {rest : List SecretUse} (unowned : d.owners.lookup use.2 = none)
      (settles : Settles d.used (Secret.envName use.1) (Secret.envName use.1) 2 env)
      (next : Becomes
        { map := { d.map with credentials := d.map.credentials.insert use.1 ⟨use.2, env⟩ }
          owners := (use.2, env) :: d.owners } rest f) :
    Becomes d (use :: rest) f

theorem Draft.becomes (uses : List SecretUse) (d : Draft) :
    Draft.Becomes d uses (uses.foldl (fun d use => d.add use.1 use.2) d) := by
  induction uses generalizing d with
  | nil => exact .done
  | cons use rest ih =>
    rw [List.foldl_cons]
    have later := ih (d.add use.1 use.2)
    generalize rest.foldl (fun d use => d.add use.1 use.2) (d.add use.1 use.2) = f at later ⊢
    cases owned : d.owners.lookup use.2 with
    | some env =>
      simp only [Draft.add, owned] at later
      exact .known owned later
    | none =>
      simp only [Draft.add, owned] at later
      exact .new owned (freshNameSettles d.used _) later

theorem Draft.becomesOnce {d f g : Draft} {uses : List SecretUse} (one : Draft.Becomes d uses f)
    (other : Draft.Becomes d uses g) : f = g := by
  induction one with
  | done =>
    cases other
    rfl
  | known owned _ ih =>
    cases other with
    | known again next =>
      cases owned.symm.trans again
      exact ih next
    | new unowned => cases owned.symm.trans unowned
  | new unowned settles _ ih =>
    cases other with
    | known owned => cases owned.symm.trans unowned
    | new _ again next =>
      cases settlesOnce settles again
      exact ih next

end CredentialsMap

/-! The credentials of a channel. -/

namespace Channel

open SecretUse (first)
open CredentialsMap (Draft Numbered)

variable {c : Channel}

theorem usePathFilled {use : SecretUse} (member : use ∈ c.secretUses) : use.1 ≠ "" := by
  obtain ⟨s, -, member⟩ := List.mem_flatMap.mp member
  obtain ⟨p, -, member⟩ := List.mem_flatMap.mp member
  obtain ⟨spot, -, path⟩ := Param.secretsHeld member
  rw [path]
  exact Spot.pathFilled (Spot.dottedFilled _ _) spot

theorem credentialSource {p : String × Credential} (member : p ∈ (CredentialsMap.ofChannel c).credentials) :
    (p.1, p.2.reference) ∈ first [] c.secretUses ∧ p.2.env = c.envOf p.2.reference := by
  rw [credentialsListed] at member
  obtain ⟨use, own, rfl⟩ := List.mem_map.mp (Table.memOfList member)
  exact ⟨own, rfl⟩

theorem credentialNumbered {p : String × Credential} (member : p ∈ (CredentialsMap.ofChannel c).credentials) :
    Numbered (Secret.envName p.1) p.2.env := by
  obtain ⟨own, env⟩ := credentialSource member
  have numbered := c.finishedGrown.numbered _ own
  rw [env]
  exact numbered

theorem credentialPath {p q : String × Credential} (left : p ∈ (CredentialsMap.ofChannel c).credentials)
    (right : q ∈ (CredentialsMap.ofChannel c).credentials) (same : p.2.reference = q.2.reference) : p.1 = q.1 :=
  SecretUse.firstUnique (credentialSource left).1 (same ▸ (credentialSource right).1)

theorem credentialEnv {p q : String × Credential} (left : p ∈ (CredentialsMap.ofChannel c).credentials)
    (right : q ∈ (CredentialsMap.ofChannel c).credentials) (same : p.2.env = q.2.env) : p = q := by
  obtain ⟨ownP, envP⟩ := credentialSource left
  obtain ⟨ownQ, envQ⟩ := credentialSource right
  have reference : p.2.reference = q.2.reference :=
    envOfInj (SecretUse.memFirst ownP).1 (SecretUse.memFirst ownQ).1 (envP.symm.trans (same.trans envQ))
  have path := credentialPath left right reference
  have stored := Table.getOfMem c.credentialsOrdered left
  rw [path, Table.getOfMem c.credentialsOrdered right] at stored
  exact Prod.ext path (Option.some.inj stored).symm

theorem secretVariablesApart (c : Channel) :
    let m := CredentialsMap.ofChannel c
    (∃ f, Draft.Becomes {} c.secretUses f) ∧ (∀ f, Draft.Becomes {} c.secretUses f → f.map = m)
    ∧ m.envVars.Nodup
    ∧ (∀ p ∈ m.credentials, ∀ q ∈ m.credentials, p.1 ≠ q.1 → p.2.reference ≠ q.2.reference)
    ∧ ∀ p ∈ m.credentials, Numbered (Secret.envName p.1) p.2.env
      ∧ Secret.isPlaceholder (Secret.placeholder p.2.env) = true
      ∧ Substitution.coerce (Secret.placeholder p.2.env) = .str (Secret.placeholder p.2.env) := by
  have ends : Draft.Becomes {} c.secretUses c.finished := Draft.becomes c.secretUses {}
  refine ⟨⟨_, ends⟩, fun f other => congrArg Draft.map (Draft.becomesOnce other ends), ?_, ?_, fun p member => ?_⟩
  · rw [CredentialsMap.envVars, Table.values, List.map_map]
    exact (Table.nodupOfOrdered c.credentialsOrdered).map_on fun p left q right => credentialEnv left right
  · exact fun p left q right apart same => apart (credentialPath left right same)
  · have filled := usePathFilled (SecretUse.memFirst (credentialSource member).1).1
    have deferred := Secret.numberedDeferred filled (credentialNumbered member)
    exact ⟨credentialNumbered member, (Secret.isPlaceholderIff _).mpr deferred, Secret.placeholderCoerced _⟩

end Channel

end Conduit
