import AccessPolicy.PolicySet.Generate
import AccessPolicy.Proofs.RepeatedDefinitions
import AccessPolicy.Proofs.Scopes

/-!
# The order of statements

A definition may stand before or after the rules that use it, and roles, users, resources and
rules may be mixed. The definitions of each kind are registered in their own order, and
the rest of the analysis reads the symbols by name only. What is left of the mixture is the order
in which repeated definitions are reported (`Program.sameOutcome_of_sameByKind`).
-/

namespace AccessPolicy

/-! ## Statements by kind -/

def Statement.kind? : Statement → Option DefinitionKind
  | .definition kind _ => some kind
  | .rule _ => none

def Program.ofKind (p : Program) (kind : Option DefinitionKind) : List Statement :=
  p.statements.filter fun s => s.kind? = kind

/-- Each kind has the same statements in the same order, and the kinds are mixed in any way. -/
def Program.SameByKind (p' p : Program) : Prop := ∀ kind, p'.ofKind kind = p.ofKind kind

/-- Lists that have the same elements of each key have the same elements. -/
theorem perm_of_filter_key {α κ : Type} [DecidableEq α] [DecidableEq κ] (key : α → κ)
    {xs ys : List α} (h : ∀ k, xs.filter (fun x => key x = k) = ys.filter fun x => key x = k) :
    xs.Perm ys := by
  rw [List.perm_iff_count]
  intro a
  have hcount : ∀ zs : List α, (zs.filter fun x => key x = key a).count a = zs.count a := by
    intro zs
    exact List.count_filter (decide_eq_true rfl)
  rw [← hcount xs, ← hcount ys, h]

namespace Program
variable {p p' : Program}

theorem definitions_ofKind (p : Program) (kind : DefinitionKind) :
    definitions ⟨p.ofKind (some kind)⟩ kind = p.definitions kind := by
  unfold definitions ofKind
  rw [List.filterMap_filter]
  apply List.filterMap_congr
  intro s _
  cases s with
  | definition k d => by_cases hkind : k = kind <;> simp [Statement.kind?, hkind]
  | rule r => rfl

theorem rules_ofKind (p : Program) : rules ⟨p.ofKind none⟩ = p.rules := by
  unfold rules ofKind
  rw [List.filterMap_filter]
  apply List.filterMap_congr
  intro s _
  cases s <;> rfl

namespace SameByKind

theorem definitions (h : p'.SameByKind p) (kind : DefinitionKind) :
    p'.definitions kind = p.definitions kind := by
  rw [← definitions_ofKind p', ← definitions_ofKind p, h]

theorem rules (h : p'.SameByKind p) : p'.rules = p.rules := by
  rw [← rules_ofKind p', ← rules_ofKind p, h]

theorem policySet (h : p'.SameByKind p) (synthesize : Bool) :
    PolicySet.ofProgram synthesize p' = PolicySet.ofProgram synthesize p := by
  unfold PolicySet.ofProgram roles users resources
  rw [h.definitions, h.definitions, h.definitions, h.rules]

end SameByKind
end Program

/-! ## Symbols -/

/-- The look-ups find definitions of the same names, and variables of the same attributes. -/
structure SameLookups (find' find : SymbolKind → String → Option Symbol) : Prop where
  known : ∀ (kind : DefinitionKind) name,
    (find' kind.symbolKind name).isSome = (find kind.symbolKind name).isSome
  attributes : ∀ name,
    (find' .variable name).map Symbol.attributes = (find .variable name).map Symbol.attributes

namespace Scope
variable {inner inner' outermost outermost' : Scope}

theorem Global.sameLookups {p p' : Program} (h' : outermost'.Global p') (h : outermost.Global p)
    (hsame : ∀ kind, p'.definitions kind = p.definitions kind) :
    SameLookups outermost'.find? outermost.find? where
  known kind name := by rw [Bool.eq_iff_iff, h'.definitions, h.definitions, hsame]
  attributes name := by rw [h'.namespaces, h.namespaces]

/-- A condition sees the fields of the rule's resource, whatever else was declared. -/
theorem Binds.sameLookups {target : Option Definition} (h' : inner'.Binds target)
    (h : inner.Binds target) : SameLookups inner'.find? inner.find? := by
  constructor
  · intro kind name
    have hother : kind.symbolKind ≠ .variable := by cases kind <;> simp [DefinitionKind.symbolKind]
    rw [h'.free _ _ (Or.inl hother), h.free _ _ (Or.inl hother)]
  · intro name
    by_cases hfree : name ≠ "resource" ∨ target = none
    · rw [h'.free _ _ (Or.inr hfree), h.free _ _ (Or.inr hfree)]
    · -- both scopes bind `resource`, to symbols that need not be equal
      obtain ⟨hname, htarget⟩ := not_or.mp hfree
      obtain rfl := not_not.mp hname
      obtain ⟨d, rfl⟩ := Option.ne_none_iff_exists'.mp htarget
      obtain ⟨symbol', hfind', hattributes'⟩ := h'.bound d rfl
      obtain ⟨symbol, hfind, hattributes⟩ := h.bound d rfl
      rw [hfind', hfind, Option.map_some, Option.map_some, hattributes', hattributes]

end Scope

namespace SymbolTable
variable {t t' : SymbolTable} {inner inner' outermost outermost' : Scope}

/-- The tables cannot be told apart by a check. -/
def Alike (t' t : SymbolTable) : Prop := SameLookups t'.resolve t.resolve

theorem AtOutermost.alike (h' : t'.AtOutermost outermost') (h : t.AtOutermost outermost)
    (houter : SameLookups outermost'.find? outermost.find?) : t'.Alike t where
  known kind name := by rw [h'.resolve, h.resolve, houter.known]
  attributes name := by rw [h'.resolve, h.resolve, houter.attributes]

theorem Within.alike (h' : t'.Within inner' outermost') (h : t.Within inner outermost)
    (hinner : SameLookups inner'.find? inner.find?)
    (houter : SameLookups outermost'.find? outermost.find?) : t'.Alike t where
  known kind name := by
    rw [h'.resolve, h.resolve, Option.isSome_or, Option.isSome_or, hinner.known, houter.known]
  attributes name := by
    rw [h'.resolve, h.resolve, Option.map_or, Option.map_or, hinner.attributes, houter.attributes]

theorem Alike.known (h : t'.Alike t) (kind : DefinitionKind) (name : String) :
    (t'.resolve kind.symbolKind name).isSome = (t.resolve kind.symbolKind name).isSome :=
  SameLookups.known h kind name

theorem fields?_eq (t : SymbolTable) (name : String) :
    t.fields? name = ((t.resolve .variable name).map Symbol.attributes).bind fun attributes =>
      ((attributes.get? "fields").bind Json.asArray?).bind fun fields =>
        some (fields.filterMap Json.asString?) := by
  unfold fields?
  rw [Option.bind_map]
  rfl

theorem Alike.fields? (h : t'.Alike t) (name : String) : t'.fields? name = t.fields? name := by
  rw [fields?_eq, fields?_eq, SameLookups.attributes h]

/-! ## Checks -/

theorem Alike.checkAttribute (h : t'.Alike t) (e : Expr) :
    checkAttribute t' e = checkAttribute t e := by
  cases e with
  | «attribute» object field line =>
      unfold AccessPolicy.checkAttribute
      dsimp only
      rw [h.fields?]
  | _ => rfl

theorem Alike.checkRole (h : t'.Alike t) (role : String × Nat) :
    checkRole t' role = checkRole t role := by
  unfold AccessPolicy.checkRole
  rw [show (t'.resolve .role role.1).isSome = _ from h.known .role role.1]
  rfl

theorem Alike.checkCondition (h : t'.Alike t) (e : Expr) :
    checkCondition t' e = checkCondition t e := by
  unfold AccessPolicy.checkCondition
  rw [funext h.checkAttribute, funext h.checkRole]

end SymbolTable

/-- The declarations are the same, and the repeated definitions are the same in some order. -/
structure Declarations.Alike (ds' ds : Declarations) : Prop where
  declared : ∀ kind, ds'.declared kind = ds.declared kind
  rules : ds'.rules = ds.rules
  duplicates : ds'.duplicates.Perm ds.duplicates

namespace Declarations
variable {ds ds' : Declarations}

theorem Alike.roles (h : ds'.Alike ds) : ds'.roles = ds.roles := h.declared .role

theorem Alike.users (h : ds'.Alike ds) : ds'.users = ds.users := h.declared .user

theorem Alike.resources (h : ds'.Alike ds) : ds'.resources = ds.resources := h.declared .resource

theorem Alike.wildcardRoles (h : ds'.Alike ds) : wildcardRoles ds' = wildcardRoles ds := by
  unfold AccessPolicy.wildcardRoles
  rw [h.roles]

theorem Alike.roleReferences (h : ds'.Alike ds) : roleReferences ds' = roleReferences ds := by
  unfold AccessPolicy.roleReferences
  rw [h.rules]

theorem Alike.checkRisks (h : ds'.Alike ds) (o : Options) : checkRisks o ds' = checkRisks o ds := by
  unfold AccessPolicy.checkRisks checkWildcards roleRisks
  rw [h.wildcardRoles, h.roles, h.rules, h.resources]

section
variable {t t' : SymbolTable} {outermost outermost' : Scope}

theorem Alike.checkUsers (h : ds'.Alike ds) (ht : ds'.symbols.Alike ds.symbols) :
    checkUsers ds' = checkUsers ds := by
  unfold AccessPolicy.checkUsers
  rw [h.users]
  apply List.filterMap_congr
  intro u _
  cases u.firstText "role" with
  | none => rfl
  | some role =>
      dsimp only
      rw [show (ds'.symbols.resolve .role role).isSome = _ from ht.known .role role]
      rfl

theorem Alike.checkResource (h : ds'.Alike ds) (ht : t'.Alike t) (r : Rule) :
    checkResource ds' t' r = checkResource ds t r := by
  have hunknown : (t'.resolve .resource r.resource).isNone =
      (t.resolve .resource r.resource).isNone := by
    rw [← Option.not_isSome, ← Option.not_isSome]
    exact congrArg not (ht.known .resource r.resource)
  unfold AccessPolicy.checkResource
  rw [h.resources, hunknown]

/-- The same is found in a rule, since its condition's scope is opened in scopes that are alike. -/
theorem Alike.checkRule (h : ds'.Alike ds) (ht' : t'.AtOutermost outermost')
    (ht : t.AtOutermost outermost) (houter : SameLookups outermost'.find? outermost.find?)
    (r : Rule) : (checkRule ds' t' r).2 = (checkRule ds t r).2 := by
  have hresource := h.checkResource (ht'.alike ht houter) r
  have htarget : ds'.target? r = ds.target? r := by
    unfold target?
    rw [h.resources]
  unfold AccessPolicy.checkRule
  dsimp only
  cases r.condition with
  | none => exact hresource
  | some e =>
      dsimp only
      obtain ⟨inner', hwithin', hbinds'⟩ := ht'.bindResource ds' r ("policy@" ++ toString r.line)
      obtain ⟨inner, hwithin, hbinds⟩ := ht.bindResource ds r ("policy@" ++ toString r.line)
      rw [htarget] at hbinds'
      have hinner := hwithin'.alike hwithin (hbinds'.sameLookups hbinds) houter
      rw [hresource, hinner.checkCondition]

theorem Alike.checkRules (h : ds'.Alike ds) (ht' : t'.AtOutermost outermost')
    (ht : t.AtOutermost outermost) (houter : SameLookups outermost'.find? outermost.find?)
    (rules : List Rule) : (checkRules ds' t' rules).2 = (checkRules ds t rules).2 := by
  induction rules generalizing t t' with
  | nil => rfl
  | cons r rest ih =>
      unfold AccessPolicy.checkRules
      dsimp only
      -- the tables have more scopes with every rule, but they are left again
      rw [h.checkRule ht' ht houter, ih (ht'.checkRule ds' r) (ht.checkRule ds r)]

theorem Alike.checkReferences (h : ds'.Alike ds) (ht' : ds'.symbols.AtOutermost outermost')
    (ht : ds.symbols.AtOutermost outermost)
    (houter : SameLookups outermost'.find? outermost.find?) :
    (checkReferences ds').2 = (checkReferences ds).2 := by
  unfold AccessPolicy.checkReferences
  dsimp only
  rw [h.checkUsers (ht'.alike ht houter), h.rules, h.checkRules ht' ht houter]

end

theorem perm_duplicates {p p' : Program} (h : p'.SameByKind p) :
    (ofProgram p').duplicates.Perm (ofProgram p).duplicates := by
  apply perm_of_filter_key fun m : Remark => m.finding.repeatedKind?
  rintro (_ | kind)
  · -- every finding among them is about a kind
    have hnone : ∀ p : Program, ((ofProgram p).duplicates.filter fun m =>
        m.finding.repeatedKind? = none) = [] := by
      intro p
      rw [List.filter_eq_nil_iff]
      intro m hm
      obtain ⟨kind, name, line, hfinding⟩ := (records_ofProgram p).duplicates m hm
      simp [hfinding, Finding.repeatedKind?]
    rw [hnone, hnone]
  · rw [filter_duplicates_ofProgram, filter_duplicates_ofProgram, h.definitions]

theorem alike_ofProgram {p p' : Program} (h : p'.SameByKind p) :
    (ofProgram p').Alike (ofProgram p) where
  declared kind := by
    rw [(records_ofProgram p').declared, (records_ofProgram p).declared, h.definitions]
  rules := by rw [(records_ofProgram p').rules, (records_ofProgram p).rules, h.rules]
  duplicates := perm_duplicates h

end Declarations

/-! ## Reports -/

/-- The reports say the same, but may list the errors in another order. -/
structure Report.SameOutcome (r' r : Report) : Prop where
  success : r'.success = r.success
  errors : r'.errors.Perm r.errors
  warnings : r'.warnings = r.warnings
  conflicts : r'.conflicts = r.conflicts
  statistics : r'.statistics = r.statistics
  securityIssues : r'.securityIssues = r.securityIssues
  recommendations : r'.recommendations = r.recommendations

namespace Program
variable {p p' : Program}

def furtherRemarks (o : Options) (p : Program) : List Remark :=
  (checkReferences (.ofProgram p)).2 ++ checkRisks o (.ofProgram p)

theorem remarks_analyze (o : Options) (p : Program) :
    (p.analyze o).remarks = (Declarations.ofProgram p).duplicates ++ p.furtherRemarks o :=
  List.append_assoc _ _ _

theorem SameByKind.furtherRemarks (h : p'.SameByKind p) (o : Options) :
    p'.furtherRemarks o = p.furtherRemarks o := by
  have halike := Declarations.alike_ofProgram h
  obtain ⟨outermost', hglobal', ht'⟩ := Declarations.exists_global p'
  obtain ⟨outermost, hglobal, ht⟩ := Declarations.exists_global p
  have houter := hglobal'.sameLookups hglobal h.definitions
  unfold Program.furtherRemarks
  rw [halike.checkReferences ht' ht houter, halike.checkRisks]

theorem SameByKind.perm_remarks (h : p'.SameByKind p) (o : Options) :
    (p'.analyze o).remarks.Perm (p.analyze o).remarks := by
  rw [remarks_analyze, remarks_analyze, h.furtherRemarks]
  exact (Declarations.perm_duplicates h).append_right _

/-- A repeated definition is an error with all options, so it is no warning. -/
theorem warnings_analyze (o : Options) (p : Program) :
    (p.analyze o).warnings =
      ((p.furtherRemarks o).filter fun m => !(p.analyze o).isError m).map
        (Remark.diagnostic o) := by
  have hnone : ((Declarations.ofProgram p).duplicates.filter fun m =>
      !(p.analyze o).isError m) = [] := by
    rw [List.filter_eq_nil_iff]
    intro m hm
    have herror : (p.analyze o).isError m = true :=
      decide_eq_true (Declarations.severity_of_mem_duplicates hm o)
    simp [herror]
  unfold Report.warnings
  rw [remarks_analyze, List.filter_append, hnone, List.nil_append]
  rfl

namespace SameByKind
variable (h : p'.SameByKind p) (o : Options)
include h

theorem perm_errors : (p'.analyze o).errors.Perm (p.analyze o).errors :=
  ((h.perm_remarks o).filter _).map _

theorem success : (p'.analyze o).success = (p.analyze o).success := by
  have herrors := h.perm_errors o
  unfold Report.success
  rw [Bool.eq_iff_iff, List.isEmpty_iff, List.isEmpty_iff]
  constructor
  · intro hnil
    exact List.nil_perm.mp (hnil ▸ herrors)
  · intro hnil
    exact List.perm_nil.mp (hnil ▸ herrors)

theorem warnings : (p'.analyze o).warnings = (p.analyze o).warnings := by
  rw [warnings_analyze, warnings_analyze, h.furtherRemarks]
  rfl

theorem conflicts : (p'.analyze o).conflicts = (p.analyze o).conflicts :=
  congrArg AccessPolicy.conflicts (Declarations.alike_ofProgram h).rules

theorem wildcards : (p'.analyze o).wildcards = (p.analyze o).wildcards :=
  (Declarations.alike_ofProgram h).wildcardRoles

theorem countP_remarks (test : Remark → Bool) :
    (p'.analyze o).remarks.countP test = (p.analyze o).remarks.countP test :=
  (h.perm_remarks o).countP_eq test

theorem statistics : (p'.analyze o).statistics = (p.analyze o).statistics := by
  have halike : (p'.analyze o).declarations.Alike (p.analyze o).declarations :=
    Declarations.alike_ofProgram h
  unfold Report.statistics Report.securityRisks Report.guestDeletes Report.undefinedReferences
  rw [h.conflicts, h.wildcards, h.countP_remarks, h.countP_remarks, halike.roleReferences,
    halike.roles, halike.users, halike.resources, halike.rules]

theorem securityIssues : (p'.analyze o).securityIssues = (p.analyze o).securityIssues := by
  unfold Report.securityIssues Report.guestDeletes Report.unguardedRules
  rw [h.wildcards, h.countP_remarks, h.countP_remarks]

theorem recommendations : (p'.analyze o).recommendations = (p.analyze o).recommendations := by
  unfold Report.recommendations Report.unguardedRules
  rw [h.wildcards, h.conflicts, h.countP_remarks]

theorem sameOutcome : (p'.analyze o).SameOutcome (p.analyze o) where
  success := h.success o
  errors := h.perm_errors o
  warnings := h.warnings o
  conflicts := h.conflicts o
  statistics := h.statistics o
  securityIssues := h.securityIssues o
  recommendations := h.recommendations o

end SameByKind

/-- **Uses may stand before definitions.** However the roles, users, resources and rules of a
program are mixed, as long as each kind keeps its order, the policy set is the same and
the analysis has the same outcome. -/
theorem sameOutcome_of_sameByKind (h : p'.SameByKind p) :
    (∀ synthesize, PolicySet.ofProgram synthesize p' = PolicySet.ofProgram synthesize p) ∧
      ∀ o, (p'.analyze o).SameOutcome (p.analyze o) :=
  ⟨h.policySet, h.sameOutcome⟩

/-! ### Two orders of one program -/

def vaultRule : Rule := ⟨.allow, ["delete"], "vault",
  some (.binary .equal (.attribute "resource" "owner" 1) (.attribute "user" "name" 1) 1), 1⟩

/-- A role and a user that are defined twice, and a rule on the resource of the last line. -/
def mixedProgram : Program := ⟨[
  .rule vaultRule,
  .definition .role ⟨"clerk", [("can", [.string "read"])], 2⟩,
  .definition .user ⟨"ann", [("role", [.string "clerk"])], 3⟩,
  .definition .role ⟨"clerk", [("can", [.string "*"])], 4⟩,
  .definition .user ⟨"ann", [("role", [.string "ghost"])], 5⟩,
  .definition .resource ⟨"vault", [("owner", [.string "ann"])], 6⟩]⟩

/-- The users of the program stand first, then the resource, the roles and the rule. -/
def sortedProgram : Program := ⟨[
  .definition .user ⟨"ann", [("role", [.string "clerk"])], 3⟩,
  .definition .user ⟨"ann", [("role", [.string "ghost"])], 5⟩,
  .definition .resource ⟨"vault", [("owner", [.string "ann"])], 6⟩,
  .definition .role ⟨"clerk", [("can", [.string "read"])], 2⟩,
  .definition .role ⟨"clerk", [("can", [.string "*"])], 4⟩,
  .rule vaultRule]⟩

/-- The repeated user is reported before the repeated role, and nothing else differs. -/
theorem sameOutcome_of_sameByKind_sorted :
    sortedProgram.SameByKind mixedProgram ∧
      ((sortedProgram.analyze {}).errors.map Diagnostic.line = [5, 4] ∧
        (mixedProgram.analyze {}).errors.map Diagnostic.line = [4, 5]) ∧
      (sortedProgram.analyze {}).SameOutcome (mixedProgram.analyze {}) := by
  have hsame : sortedProgram.SameByKind mixedProgram := by
    rintro (_ | _ | _ | _) <;> rfl
  obtain ⟨_, houtcome⟩ := sameOutcome_of_sameByKind hsame
  exact ⟨hsame, by decide +kernel, houtcome {}⟩

end Program
end AccessPolicy
