import Conduit.Credentials
import Conduit.Proofs.Tables
import Mathlib.Data.List.Nodup
import Mathlib.Data.List.Perm.Subperm
import Std.Data.String.ToNat

/-! What the credentials map keeps of the uses of secrets it is made from. A use is a first one or a later
one of its reference; the first ones become credentials, the later ones aliases, and in each table the last
use at a path is the one that stays. -/
namespace Conduit

abbrev SecretUse := String × String

namespace SecretUse

def first (met : List String) : List SecretUse → List SecretUse
  | [] => []
  | use :: rest => if use.2 ∈ met then first met rest else use :: first (use.2 :: met) rest

def later (met : List String) : List SecretUse → List SecretUse
  | [] => []
  | use :: rest => if use.2 ∈ met then use :: later met rest else later (use.2 :: met) rest

def lastAt (path : String) (uses : List SecretUse) : Option String :=
  (uses.reverse.find? fun use => use.1 = path).map (·.2)

/-- The first use of the reference is the last first use at its path, and the use itself is at that path
or of the same reference as the last later use at its own. -/
def Kept (uses : List SecretUse) (use : SecretUse) : Prop :=
  ∃ home, (home, use.2) ∈ first [] uses ∧ lastAt home (first [] uses) = some use.2 ∧
    (use.1 = home ∨ lastAt use.1 (later [] uses) = some use.2)

theorem memFirst {met : List String} {uses : List SecretUse} {use : SecretUse}
    (mem : use ∈ first met uses) : use ∈ uses ∧ use.2 ∉ met := by
  induction uses generalizing met with
  | nil => simp [first] at mem
  | cons head rest ih =>
    simp only [first] at mem
    split at mem
    · exact ⟨List.mem_cons_of_mem _ (ih mem).1, (ih mem).2⟩
    · rename_i new
      rcases List.mem_cons.mp mem with rfl | below
      · exact ⟨List.mem_cons_self, new⟩
      · exact ⟨List.mem_cons_of_mem _ (ih below).1, fun old => (ih below).2 (List.mem_cons_of_mem _ old)⟩

theorem memLater {met : List String} {uses : List SecretUse} {use : SecretUse}
    (mem : use ∈ later met uses) : use ∈ uses := by
  induction uses generalizing met with
  | nil => simp [later] at mem
  | cons head rest ih =>
    simp only [later] at mem
    split at mem
    · rcases List.mem_cons.mp mem with rfl | below
      · exact List.mem_cons_self
      · exact List.mem_cons_of_mem _ (ih below)
    · exact List.mem_cons_of_mem _ (ih mem)

theorem memFirstOrLater (met : List String) {uses : List SecretUse} {use : SecretUse} (mem : use ∈ uses) :
    use ∈ first met uses ∨ use ∈ later met uses := by
  induction uses generalizing met with
  | nil => simp at mem
  | cons head rest ih =>
    simp only [first, later]
    split
    · rcases List.mem_cons.mp mem with rfl | below
      · exact .inr List.mem_cons_self
      · exact (ih met below).imp_right (List.mem_cons_of_mem _)
    · rcases List.mem_cons.mp mem with rfl | below
      · exact .inl List.mem_cons_self
      · exact (ih _ below).imp_left (List.mem_cons_of_mem _)

theorem firstOfUse (met : List String) {uses : List SecretUse} {use : SecretUse} (mem : use ∈ uses) :
    use.2 ∈ met ∨ ∃ home, (home, use.2) ∈ first met uses := by
  induction uses generalizing met with
  | nil => simp at mem
  | cons head rest ih =>
    simp only [first]
    split
    · rename_i old
      rcases List.mem_cons.mp mem with rfl | below
      · exact .inl old
      · exact ih met below
    · rcases List.mem_cons.mp mem with rfl | below
      · exact .inr ⟨use.1, List.mem_cons_self⟩
      · rcases ih (head.2 :: met) below with old | ⟨home, inside⟩
        · rcases List.mem_cons.mp old with same | before
          · refine .inr ⟨head.1, ?_⟩
            rw [same]
            exact List.mem_cons_self
          · exact .inl before
        · exact .inr ⟨home, List.mem_cons_of_mem _ inside⟩

theorem firstUnique {met : List String} {uses : List SecretUse} {a b reference : String}
    (left : (a, reference) ∈ first met uses) (right : (b, reference) ∈ first met uses) : a = b := by
  induction uses generalizing met with
  | nil => simp [first] at left
  | cons head rest ih =>
    simp only [first] at left right
    split at left
    · rename_i old
      rw [if_pos old] at right
      exact ih left right
    · rename_i new
      rw [if_neg new] at right
      have fresh : ∀ path, (path, reference) ∈ first (head.2 :: met) rest → reference ≠ head.2 :=
        fun path mem same => (memFirst mem).2 (same ▸ List.mem_cons_self)
      rcases List.mem_cons.mp left with here | below
      · rcases List.mem_cons.mp right with also | after
        · exact congrArg Prod.fst (here.trans also.symm)
        · exact absurd (congrArg Prod.snd here) (fresh b after)
      · rcases List.mem_cons.mp right with also | after
        · exact absurd (congrArg Prod.snd also) (fresh a below)
        · exact ih below after

theorem lastAtMem {path reference : String} {uses : List SecretUse}
    (last : lastAt path uses = some reference) : (path, reference) ∈ uses := by
  obtain ⟨use, found, same⟩ := Option.map_eq_some_iff.mp last
  have place : use.1 = path := by simpa using List.find?_some found
  have mem := List.mem_reverse.mp (List.mem_of_find?_eq_some found)
  rwa [← place, ← same]

theorem lastAtOfMem {path reference : String} {uses : List SecretUse} (mem : (path, reference) ∈ uses) :
    ∃ last, lastAt path uses = some last := by
  have found : (uses.reverse.find? fun use => use.1 = path).isSome := by
    rw [List.find?_isSome]
    exact ⟨(path, reference), List.mem_reverse.mpr mem, by simp⟩
  obtain ⟨use, atPath⟩ := Option.isSome_iff_exists.mp found
  exact ⟨use.2, by rw [lastAt, atPath]; rfl⟩

theorem keptOfPaths {uses : List SecretUse} (apart : ∀ a ∈ uses, ∀ b ∈ uses, a.1 = b.1 → a.2 = b.2)
    {use : SecretUse} (mem : use ∈ uses) : Kept uses use := by
  rcases firstOfUse [] mem with old | ⟨home, own⟩
  · simp at old
  refine ⟨home, own, ?_, ?_⟩
  · obtain ⟨last, found⟩ := lastAtOfMem own
    have same := apart _ (memFirst (lastAtMem found)).1 _ (memFirst own).1 rfl
    rw [found]
    exact congrArg some same
  · have pair : (use.1, use.2) ∈ uses := mem
    rcases memFirstOrLater [] pair with early | late
    · exact .inl (firstUnique early own)
    · obtain ⟨last, found⟩ := lastAtOfMem late
      have same := apart _ (memLater (lastAtMem found)) _ mem rfl
      exact .inr (by rw [found]; exact congrArg some same)

end SecretUse

namespace CredentialsMap

open SecretUse

theorem candidateInj {base : String} {i j : Nat} (same : s!"{base}_{i + 2}" = s!"{base}_{j + 2}") : i = j := by
  have numbers : (toString base ++ toString "_") ++ toString (i + 2) =
      (toString base ++ toString "_") ++ toString (j + 2) := same
  have digits := Nat.repr_injective (String.append_right_inj _ |>.mp numbers)
  omega

def candidates (used : List String) (base : String) : List String :=
  base :: (List.range used.length).map fun i => s!"{base}_{i + 2}"

theorem candidatesNodup (used : List String) (base : String) : (candidates used base).Nodup := by
  refine List.nodup_cons.mpr ⟨?_, List.nodup_range.map_on ?_⟩
  · intro mem
    obtain ⟨i, _, same⟩ := List.mem_map.mp mem
    have lengths := congrArg String.length same
    simp only [String.length_append, toString] at lengths
    have underscore : "_".length = 1 := rfl
    omega
  · exact fun i _ j _ same => candidateInj same

theorem freshNameFound (used : List String) (base : String) :
    (candidates used base).find? (fun name => !used.contains name) = some (freshName used base) := by
  have unused : ∃ name ∈ candidates used base, !used.contains name := by
    by_contra nowhere
    have inside : candidates used base ⊆ used := by
      intro name mem
      by_contra new
      exact nowhere ⟨name, mem, by simpa using new⟩
    have bound := ((candidatesNodup used base).subperm inside).length_le
    simp only [candidates, List.length_cons, List.length_map, List.length_range] at bound
    omega
  obtain ⟨name, found⟩ := Option.isSome_iff_exists.mp (List.find?_isSome.mpr unused)
  have chosen : freshName used base = name := congrArg (Option.getD · base) found
  rw [chosen, found]

theorem freshNameNew (used : List String) (base : String) : freshName used base ∉ used := by
  simpa using List.find?_some (freshNameFound used base)

def Numbered (base name : String) : Prop := name = base ∨ ∃ n, 2 ≤ n ∧ name = s!"{base}_{n}"

theorem freshNameNumbered (used : List String) (base : String) : Numbered base (freshName used base) := by
  rcases List.mem_cons.mp (List.mem_of_find?_eq_some (freshNameFound used base)) with same | later
  · exact .inl same
  · obtain ⟨i, -, same⟩ := List.mem_map.mp later
    exact .inr ⟨i + 2, Nat.le_add_left 2 i, same.symm⟩

def ownedEnv (owners : List (String × String)) (reference : String) : String :=
  (Table.get? owners reference).getD ""

/-- What the uses add to a draft. The names of credentials and aliases are those that the references have
at the end, as no reference ever changes its variable. -/
structure Draft.Grown (d : Draft) (uses : List SecretUse) (f : Draft) : Prop where
  kept : ∀ reference env, Table.get? d.owners reference = some env → Table.get? f.owners reference = some env
  known : ∀ use ∈ uses, ∃ env, Table.get? f.owners use.2 = some env
  credentials : f.map.credentials = (first (Table.names d.owners) uses).foldl
    (fun table use => Table.insert use.1 ⟨use.2, ownedEnv f.owners use.2⟩ table) d.map.credentials
  aliases : f.map.aliases = (later (Table.names d.owners) uses).foldl
    (fun table use => Table.insert use.1 (ownedEnv f.owners use.2) table) d.map.aliases
  distinct : (Table.values d.owners).Nodup → (Table.values f.owners).Nodup
  numbered : ∀ use ∈ first (Table.names d.owners) uses, Numbered (Secret.envName use.1) (ownedEnv f.owners use.2)

theorem Draft.grownAlias {d f : Draft} {use : SecretUse} {env : String} {rest : List SecretUse}
    (owned : Table.get? d.owners use.2 = some env)
    (grown : Draft.Grown { d with map := { d.map with aliases := d.map.aliases.insert use.1 env } } rest f) :
    Draft.Grown d (use :: rest) f := by
  have old : use.2 ∈ Table.names d.owners := (Table.getSome _ _).mp ⟨env, owned⟩
  have name : ownedEnv f.owners use.2 = env := by rw [ownedEnv, grown.kept _ _ owned]; rfl
  refine ⟨grown.kept, ?_, ?_, ?_, grown.distinct, ?_⟩
  · intro other mem
    rcases List.mem_cons.mp mem with rfl | below
    · exact ⟨env, grown.kept _ _ owned⟩
    · exact grown.known other below
  · simp only [first, if_pos old]
    exact grown.credentials
  · simp only [later, if_pos old, List.foldl_cons, name]
    exact grown.aliases
  · simp only [first, if_pos old]
    exact grown.numbered

theorem Draft.grownOwner {d f : Draft} {use : SecretUse} {env : String} {rest : List SecretUse}
    (unowned : Table.get? d.owners use.2 = none) (new : env ∉ Table.values d.owners)
    (named : Numbered (Secret.envName use.1) env)
    (grown : Draft.Grown
      { map := { d.map with credentials := d.map.credentials.insert use.1 ⟨use.2, env⟩ }
        owners := (use.2, env) :: d.owners } rest f) :
    Draft.Grown d (use :: rest) f := by
  have unmet : use.2 ∉ Table.names d.owners := by
    intro mem
    obtain ⟨other, owned⟩ := (Table.getSome _ _).mpr mem
    rw [unowned] at owned
    contradiction
  have own : Table.get? f.owners use.2 = some env := grown.kept _ _ (by rw [Table.getCons, if_pos rfl])
  have name : ownedEnv f.owners use.2 = env := by rw [ownedEnv, own]; rfl
  refine ⟨?_, ?_, ?_, ?_, ?_, ?_⟩
  · intro reference other owned
    refine grown.kept _ _ ?_
    have different : reference ≠ use.2 := by
      rintro rfl
      rw [unowned] at owned
      contradiction
    rw [Table.getCons, if_neg different, owned]
  · intro other mem
    rcases List.mem_cons.mp mem with rfl | below
    · exact ⟨env, own⟩
    · exact grown.known other below
  · simp only [first, if_neg unmet, List.foldl_cons, name]
    exact grown.credentials
  · simp only [later, if_neg unmet]
    exact grown.aliases
  · exact fun before => grown.distinct (List.nodup_cons.mpr ⟨new, before⟩)
  · simp only [first, if_neg unmet]
    exact List.forall_mem_cons.mpr ⟨name ▸ named, grown.numbered⟩

theorem Draft.grown (uses : List SecretUse) (d : Draft) :
    Draft.Grown d uses (uses.foldl (fun d use => d.add use.1 use.2) d) := by
  induction uses generalizing d with
  | nil => exact ⟨fun _ _ owned => owned, by simp, rfl, rfl, id, List.forall_mem_nil _⟩
  | cons use rest ih =>
    rw [List.foldl_cons]
    cases owned : Table.get? d.owners use.2 with
    | some env =>
      have step : d.add use.1 use.2 =
          { d with map := { d.map with aliases := d.map.aliases.insert use.1 env } } := by
        simp only [Draft.add, show d.owners.lookup use.2 = some env from owned]
      rw [step]
      exact Draft.grownAlias owned (ih _)
    | none =>
      let env := freshName d.used (Secret.envName use.1)
      have step : d.add use.1 use.2 =
          { map := { d.map with credentials := d.map.credentials.insert use.1 ⟨use.2, env⟩ }
            owners := (use.2, env) :: d.owners } := by
        simp only [Draft.add, show d.owners.lookup use.2 = none from owned, env]
      rw [step]
      exact Draft.grownOwner owned (freshNameNew d.used _) (freshNameNumbered d.used _) (ih _)

end CredentialsMap

end Conduit
