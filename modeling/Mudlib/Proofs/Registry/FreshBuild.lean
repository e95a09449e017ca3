import Mudlib.Proofs.Definition.Declaration
import Mudlib.Proofs.Registry.Rollback
/-!
A compilation that succeeds gives what a registry without a cache would make of the same sources,
also where it hands out the table made before because the source declares nothing new.

The shortcut compares one fingerprint only, that of the source itself. It is right since a cached
table is always the one that its source makes: whatever changed above it has taken it from the cache.
-/
set_option autoImplicit false

namespace Mudlib

theorem fingerprint_of_link {stamp : Nat} {d : Definition} {parents : List Table}
    {policy : AmbiguityPolicy} {t : Table} (h : link stamp d parents policy = .ok t) :
    t.fingerprint = d.fingerprint? := by
  obtain ⟨_, _, _, -, -, -, rfl⟩ := link_eq_ok.mp h
  rfl

theorem Definition.eq_of_fingerprint {d s : Definition} {f : String} (hd : d.fingerprint? = some f)
    (hs : s.fingerprint? = some f)
    (hdigest : ∀ a b, s.declarationText? = some a → d.declarationText? = some b →
      Sha256.hexDigest a = Sha256.hexDigest b → a = b) : s = d := by
  obtain ⟨b, hb, rfl⟩ := Option.map_eq_some_iff.mp hd
  obtain ⟨a, ha, hab⟩ := Option.map_eq_some_iff.mp hs
  obtain rfl := hdigest a b ha hb hab
  exact Definition.eq_of_declarationText ha hb

namespace Registry

def holding (policy : AmbiguityPolicy) (maxDepth : Nat) (loader : Option Loader)
    (sources : Dict DefinitionId Definition) : Registry :=
  { empty policy maxDepth loader with sources := sources }

variable {r r' : Registry} {id : DefinitionId} {d s : Definition} {t : Table}

theorem coherent_holding (hc : Coherent r) (d : Definition) :
    Coherent (holding r.policy r.maxDepth r.loader (r.sources.insert d.id d)) := by
  refine (coherent_empty r.policy r.maxDepth r.loader).withSources ?_ (fun ht => nomatch ht)
  intro id e he
  rw [Dict.get?_insert] at he
  split at he
  next hid => cases he; exact hid.symm
  next => exact hc.keyed he

theorem effective?_holding (r : Registry) (d : Definition) :
    (holding r.policy r.maxDepth r.loader (r.sources.insert d.id d)).effective? =
      (r.register d).effective? := rfl

theorem effective?_register_self (hs : r.source? d.id = some d) :
    (r.register d).effective? = r.effective? := by
  funext a
  rw [effective?_register]
  split
  next ha => rw [ha, effective?, hs, Option.some_or]
  next => rfl

/-- The shortcut is taken only for the source that is stored. -/
theorem source_of_unchanged? (hc : Coherent r) (hu : r.unchanged? d = some t)
    (hdigest : ∀ s a b, r.source? d.id = some s → s.declarationText? = some a →
      d.declarationText? = some b → Sha256.hexDigest a = Sha256.hexDigest b → a = b) :
    r.source? d.id = some d := by
  obtain ⟨s, parents, hs, -, hl⟩ := hc.made (unchanged?_eq_some hu)
  have hfingerprint : ∃ f, d.fingerprint? = some f ∧ t.fingerprint = some f := by
    unfold unchanged? at hu
    split at hu
    next f u hf hcached =>
      split at hu
      next heq =>
        cases hu
        exact ⟨f, hf, heq⟩
      next => cases hu
    next => cases hu
  obtain ⟨f, hd, ht⟩ := hfingerprint
  rw [fingerprint_of_link hl] at ht
  rw [hs, Definition.eq_of_fingerprint hd ht fun a b => hdigest s a b hs]

theorem compile_reached (hc : Coherent r)
    (hdigest : ∀ s a b, r.source? d.id = some s → s.declarationText? = some a →
      d.declarationText? = some b → Sha256.hexDigest a = Sha256.hexDigest b → a = b) :
    ∃ r₁, Reached (holding r.policy r.maxDepth r.loader (r.sources.insert d.id d)) r₁ ∧
      (r.compile d).1 = (r₁.get d.id).1 ∧ ∀ t, (r.compile d).1 = .ok t → (r.compile d).2 =
        (r₁.get d.id).2 := by
  cases hu : r.unchanged? d with
  | some t =>
    have hs := source_of_unchanged? hc hu hdigest
    have hget : r.get d.id = (.ok t, r) := resolveWithin_cached _ (unchanged?_eq_some hu)
    refine ⟨r, ⟨hc, ?_, rfl, rfl⟩, ?_, ?_⟩
    · rw [effective?_holding, effective?_register_self hs]
    · rw [compile_unchanged hu, hget]
    · intro u _
      rw [compile_unchanged hu, hget]
  | none =>
    refine ⟨r.register d, ⟨hc.register d, (effective?_holding r d).symm, rfl, rfl⟩, ?_, ?_⟩
    · rcases hg : (r.register d).get d.id with ⟨out, r'⟩
      cases out with
      | ok t => rw [compile_ok hu hg]
      | error e => rw [compile_error hu hg]
    · intro t ht
      rcases hg : (r.register d).get d.id with ⟨out, r'⟩
      cases out with
      | ok u => rw [compile_ok hu hg]
      | error e =>
        rw [compile_error hu hg] at ht
        cases ht

/-- A definition compiles just when a registry that holds the same sources, it among them, and has
made no table yet has one for it, and it gives that table up to the numbers of the linkings; from
then on both registries agree on every id. Of SHA-256 it is used that it tells the text of the
definition from that of the source stored before. -/
theorem compile_agrees_with_fresh_build (policy : AmbiguityPolicy) (maxDepth : Nat)
    (loader : Option Loader) (operations : List Operation) (d : Definition) (r : Registry)
    (hr : r = (empty policy maxDepth loader).afterAll operations)
    (hdigest : ∀ s a b, r.source? d.id = some s → s.declarationText? = some a →
      d.declarationText? = some b → Sha256.hexDigest a = Sha256.hexDigest b → a = b) :
    let fresh := holding policy maxDepth loader (r.sources.insert d.id d)
    ((∃ t, (r.compile d).1 = .ok t) ↔ ∃ t, (fresh.get d.id).1 = .ok t) ∧
    (∀ t u, (r.compile d).1 = .ok t → (fresh.get d.id).1 = .ok u → t.Alike u) ∧
    ∀ t, (r.compile d).1 = .ok t → Agrees fresh (r.compile d).2 := by
  intro fresh
  have hc : Coherent r := hr ▸ coherent_afterAll policy maxDepth loader operations
  have hsame := sameSettings_afterAll (coherent_empty policy maxDepth loader) operations
  rw [← hr] at hsame
  have hfresh : holding r.policy r.maxDepth r.loader (r.sources.insert d.id d) = fresh := by
    rw [hsame.policy, hsame.maxDepth, hsame.loader]
    rfl
  have hcfresh : Coherent fresh := hfresh ▸ coherent_holding hc d
  obtain ⟨r₁, hreached, hout, hafter⟩ := compile_reached hc hdigest
  rw [hfresh] at hreached
  have hagrees := hreached.agrees hcfresh
  rw [hout]
  refine ⟨hagrees.succeeds d.id, fun t u ht hu => hagrees.alike hu ht, ?_⟩
  intro t ht
  rw [hafter t (hout.trans ht)]
  exact (hreached.walk (resolved_get hreached.coherent d.id).walk).agrees hcfresh

section Relit

/-- The sconce compiles again: the stored table is handed out, and it is what a fresh build makes. -/
theorem sconce_compiles_as_built_fresh :
    let r := (empty .firstContributor 8 none).afterAll mounted
    let fresh := holding .firstContributor 8 none (r.sources.insert sconce.id sconce)
    ∃ t u, (r.compile sconce).1 = .ok t ∧ (fresh.get sconce.id).1 = .ok u ∧ t.Alike u ∧
      Agrees fresh (r.compile sconce).2 := by
  intro r fresh
  have hc := ((coherent_empty .firstContributor 8 none).register candle).register sconce
  have hstored : r.source? sconce.id = some sconce := (resolved_get hc sconce.id).walk.grows.source
    ((get?_sources_register _ sconce sconce.id).trans (if_pos rfl))
  obtain ⟨hiff, halike, hagrees⟩ := compile_agrees_with_fresh_build .firstContributor 8 none
    mounted sconce r rfl (by
      intro s a b hs ha hb _
      obtain rfl : sconce = s := Option.some.inj (hstored.symm.trans hs)
      exact Option.some.inj (ha.symm.trans hb))
  have hrun : (fresh.get sconce.id).1.toOption.isSome = true := by decide +kernel
  rcases hu : (fresh.get sconce.id).1 with e | u
  · rw [hu] at hrun
    cases hrun
  · obtain ⟨t, ht⟩ := hiff.mpr ⟨u, hu⟩
    exact ⟨t, u, ht, rfl, halike t u ht hu, hagrees t ht⟩

end Relit

end Registry

end Mudlib
