import AccessPolicy.Proofs.Decisions
import AccessPolicy.Proofs.Documents
import AccessPolicy.Proofs.RuleMatching

/-!
# Compilation preserves meaning

`Program.interpret` answers a request by the program alone: no text of a
condition, no document and no index is in between. An engine that was loaded
from the compiled program, or from the document of that, answers the same.
-/

namespace AccessPolicy

/-! ## The interpreter -/

/-- The rule is listed for a request: its resource matches, `*` or the action is
among its actions, and its condition, if there is one, evaluates to true without
an error. -/
structure Rule.Listed (env : Environment) (action : String) (resource : Resource)
    (r : Rule) : Prop where
  resource : ResourcePattern.matchesResource r.resource resource = true
  action : "*" ∈ r.actions ∨ action ∈ r.actions
  condition : ∀ e, r.condition = some e → e.eval env = .ok (.bool true)

theorem Rule.applies_iff {env : Environment} {action : String} {resource : Resource} {r : Rule} :
    r.applies env action resource = true ↔ r.Listed env action resource := by
  unfold applies
  rw [Bool.and_eq_true, Bool.and_eq_true, coversAction_iff]
  constructor
  · rintro ⟨⟨hresource, haction⟩, hcondition⟩
    refine ⟨hresource, haction, fun e he => ?_⟩
    rw [he] at hcondition
    exact Expr.holds_iff.mp hcondition
  · rintro ⟨hresource, haction, hcondition⟩
    refine ⟨⟨hresource, haction⟩, ?_⟩
    cases hc : r.condition with
    | none => rfl
    | some e => exact Expr.holds_iff.mpr (hcondition e hc)

instance (env : Environment) (action : String) (resource : Resource) (r : Rule) :
    Decidable (r.Listed env action resource) :=
  decidable_of_iff _ Rule.applies_iff

/-- What a request is answered, and the rules that are listed for it. -/
structure Answer where
  effect : Effect
  listed : List Rule

namespace Answer

def refused : Answer := ⟨.deny, []⟩

/-- A rule that denies outweighs those that allow, and without either nothing is
allowed. -/
def ofListed (rules : List Rule) : Answer :=
  if ∃ r ∈ rules, r.effect = .deny then ⟨.deny, rules⟩
  else if ∃ r ∈ rules, r.effect = .allow then ⟨.allow, rules⟩
  else ⟨.deny, rules⟩

end Answer

namespace Program

def lookup (p : Program) (kind : DefinitionKind) (name : String) : Option Definition :=
  (p.definitions kind).find? fun d => d.name = name

/-- The user, the user's role and the resource of a request, if all three are
defined. An empty role is none. -/
def parties? (p : Program) (request : Request) : Option (Definition × String × Definition) := do
  let user ← p.lookup .user request.user
  let resource ← p.lookup .resource request.resource
  let role ← user.firstText "role"
  if role = "" then none
  else
    let _ ← p.lookup .role role
    return (user, role, resource)

def interpret (p : Program) (request : Request) (context : CallerContext) (now : Moment) :
    Answer :=
  match p.parties? request with
  | none => .refused
  | some (user, role, resource) =>
    let env := Environment.ofRequest user.toUser role resource.toResource context now
    let action := Text.lower request.action
    .ofListed (p.rules.filter fun r => r.Listed env action resource.toResource)

end Program

/-- The engine decides every request as the program answers it, and lists the
policies of the rules that the program lists. -/
def Engine.AnswersAs (e : Engine) (p : Program) : Prop :=
  ∀ request context now,
    (e.decide request context now).effect = (p.interpret request context now).effect ∧
    (e.decide request context now).matched =
      (p.interpret request context now).listed.map Rule.toPolicy

/-! ## Look-up by name -/

theorem find?_firstNamed_go (seen : List String) (ds : List Definition) {name : String}
    (h : name ∉ seen) :
    (firstNamed.go seen ds).find? (fun d => d.name = name) = ds.find? fun d => d.name = name := by
  induction ds generalizing seen with
  | nil => rfl
  | cons d ds ih =>
      unfold firstNamed.go
      -- the first definition of the name is kept, as the name was not seen before
      by_cases hname : d.name = name
      · rw [if_neg (hname ▸ h), List.find?_cons_of_pos (by simpa using hname),
          List.find?_cons_of_pos (by simpa using hname)]
      · rw [List.find?_cons_of_neg (by simpa using hname)]
        split_ifs with hseen
        · exact ih seen h
        · rw [List.find?_cons_of_neg (by simpa using hname)]
          refine ih _ ?_
          rw [List.mem_cons]
          rintro (rfl | hmem)
          · exact hname rfl
          · exact h hmem

theorem find?_firstNamed (ds : List Definition) (name : String) :
    (firstNamed ds).find? (fun d => d.name = name) = ds.find? fun d => d.name = name :=
  find?_firstNamed_go [] ds List.not_mem_nil

section Loaded
variable {p : Program} {synthesize : Bool}

theorem user?_ofProgram (name : String) :
    (Engine.load (.ofProgram synthesize p)).user? name =
      (p.lookup .user name).map Definition.toUser := by
  have hmap := List.find?_map (p := fun u : User => decide (u.name = name)) (f := Definition.toUser)
    (l := firstNamed p.users)
  rw [Engine.user?_eq]
  exact hmap.trans (congrArg _ (find?_firstNamed p.users name))

theorem role?_ofProgram (name : String) :
    (Engine.load (.ofProgram synthesize p)).role? name =
      (p.lookup .role name).map Definition.toRole := by
  have hmap := List.find?_map (p := fun r : Role => decide (r.name = name)) (f := Definition.toRole)
    (l := firstNamed p.roles)
  rw [Engine.role?_eq]
  exact hmap.trans (congrArg _ (find?_firstNamed p.roles name))

theorem resource?_ofProgram (name : String) :
    (Engine.load (.ofProgram synthesize p)).resource? name =
      (p.lookup .resource name).map Definition.toResource := by
  have hmap := List.find?_map (p := fun r : Resource => decide (r.name = name))
    (f := Definition.toResource) (l := firstNamed p.resources)
  rw [Engine.resource?_eq]
  exact hmap.trans (congrArg _ (find?_firstNamed p.resources name))

/-- The engine finds the parties of a request just where the program does. -/
theorem toOption_parties (synthesize : Bool) (request : Request) :
    ((Engine.load (.ofProgram synthesize p)).parties request).toOption =
      (p.parties? request).map fun x => ⟨x.1.toUser, x.2.1, x.2.2.toResource⟩ := by
  unfold Engine.parties Program.parties?
  rw [user?_ofProgram, resource?_ofProgram]
  cases p.lookup .user request.user with
  | none => rfl
  | some user =>
      cases p.lookup .resource request.resource with
      | none => rfl
      | some resource =>
          -- one side drops an empty role, the other stops at it
          have hassigned : user.toUser.assignedRole? =
              (user.firstText "role").filter (· ≠ "") := rfl
          simp only [Option.map_some, hassigned, Option.bind_eq_bind, Option.bind_some]
          cases user.firstText "role" with
          | none => rfl
          | some role =>
              by_cases hempty : role = ""
              · subst hempty
                rfl
              · have hfilter : (some role).filter (· ≠ "") = some role := by simp [hempty]
                simp only [hfilter, Option.bind_some, if_neg hempty, role?_ofProgram]
                cases p.lookup .role role <;> rfl

end Loaded

/-! ## The combination of effects -/

theorem verdict_toPolicy (rules : List Rule) :
    (Engine.verdict (rules.map Rule.toPolicy)).effect = (Answer.ofListed rules).effect := by
  have hany : ∀ effect, ((rules.map Rule.toPolicy).any fun p => p.effect = effect) = true ↔
      ∃ r ∈ rules, r.effect = effect := by
    intro effect
    rw [Engine.any_effect]
    constructor
    · rintro ⟨p, hp, heffect⟩
      obtain ⟨r, hr, rfl⟩ := List.mem_map.mp hp
      exact ⟨r, hr, heffect⟩
    · rintro ⟨r, hr, heffect⟩
      exact ⟨r.toPolicy, List.mem_map_of_mem hr, heffect⟩
  unfold Engine.verdict Answer.ofListed
  simp only [hany]
  split_ifs <;> rfl

theorem Answer.listed_ofListed (rules : List Rule) : (ofListed rules).listed = rules := by
  unfold ofListed
  split_ifs <;> rfl

/-! ## The engine of a program -/

theorem answersAs_ofProgram {p : Program} (hne : p.rules ≠ []) (hw : ∀ r ∈ p.rules, r.Writable)
    (synthesize : Bool) : (Engine.load (.ofProgram synthesize p)).AnswersAs p := by
  intro request context now
  have hparties := toOption_parties (p := p) synthesize request
  unfold Engine.decide Program.interpret
  cases hengine : (Engine.load (.ofProgram synthesize p)).parties request with
  | error reason =>
      -- some party is missing on both sides
      rw [hengine] at hparties
      have hnone : p.parties? request = none := Option.map_eq_none_iff.mp hparties.symm
      rw [hnone]
      exact ⟨Engine.effect_of_parties_error hengine, rfl⟩
  | ok parties =>
      rw [hengine] at hparties
      obtain ⟨⟨user, role, resource⟩, hsome, hsame⟩ := Option.map_eq_some_iff.mp hparties.symm
      subst hsame
      rw [hsome]
      dsimp only
      rw [Engine.matching_ofProgram hne hw]
      have hlisted : ∀ env action resource, p.rules.filter (Rule.applies env action resource) =
          p.rules.filter fun r => r.Listed env action resource := by
        intro env action resource
        refine List.filter_congr fun r _ => ?_
        rw [Bool.eq_iff_iff, decide_eq_true_iff, Rule.applies_iff]
      rw [hlisted, Answer.listed_ofListed]
      exact ⟨verdict_toPolicy _, rfl⟩

/-! ## Compiled sources -/

theorem mem_of_mem_firstNamed_go {seen : List String} {ds : List Definition} {d : Definition}
    (h : d ∈ firstNamed.go seen ds) : d ∈ ds := by
  induction ds generalizing seen with
  | nil => cases h
  | cons e ds ih =>
      unfold firstNamed.go at h
      split_ifs at h
      · exact List.mem_cons_of_mem _ (ih h)
      · rcases List.mem_cons.mp h with rfl | h
        · exact List.mem_cons_self
        · exact List.mem_cons_of_mem _ (ih h)

/-- The lines of a policy set are those of its text, so they fit if the last one
does. -/
theorem linesFit_ofProgram {maxErrors : Nat} {source : String} {p : Program}
    (h : Program.ofTokens maxErrors (TokenStream.scan source).1 = .ok p)
    (hlines : (TokenStream.scan source).1.endLine ≤ greatestLine) (synthesize : Bool) :
    (PolicySet.ofProgram synthesize p).LinesFit := by
  have hdefinition : ∀ {kind d}, d ∈ firstNamed (p.definitions kind) → d.line ≤ greatestLine := by
    intro kind d hd
    have hmem := mem_of_mem_firstNamed_go hd
    exact Nat.le_trans (Program.line_le_of_mem_definitions h hmem) hlines
  constructor
  · intro r hr
    obtain ⟨d, hd, rfl⟩ := List.mem_map.mp hr
    exact hdefinition hd
  · intro u hu
    obtain ⟨d, hd, rfl⟩ := List.mem_map.mp hu
    exact hdefinition hd
  · intro r hr
    obtain ⟨d, hd, rfl⟩ := List.mem_map.mp hr
    exact hdefinition hd
  · intro q hq n hn
    unfold PolicySet.ofProgram at hq
    dsimp only at hq
    split_ifs at hq
    · -- a synthesized policy has no line
      obtain ⟨role, _, hq⟩ := List.mem_flatMap.mp hq
      obtain ⟨resource, _, rfl⟩ := List.mem_map.mp hq
      cases hn
    · obtain ⟨r, hr, rfl⟩ := List.mem_map.mp hq
      cases hn
      exact Nat.le_trans (Program.line_le_of_mem_rules h hr) hlines

/-- **Compilation preserves meaning.** A compiled text is a program. If this has
rules, the engine of the policy set answers every request as the program does,
and so does the engine of every policy set that the document of that one is
decoded to. It is decoded unless the text has more lines than a number of 32
bits can count. -/
theorem compile_preserves_meaning {o : Options} {source : String} {ir : PolicySet}
    (h : (compile o source).policySet = some ir) :
    ∃ p, Program.ofTokens o.maxErrors (TokenStream.scan source).1 = .ok p ∧
      (p.rules ≠ [] →
        (Engine.load ir).AnswersAs p ∧
        (∀ set, PolicySet.ofJson ir.toJson = .ok set → (Engine.load set).AnswersAs p)) ∧
      ((TokenStream.scan source).1.endLine ≤ greatestLine →
        ∃ set, PolicySet.ofJson ir.toJson = .ok set) := by
  obtain ⟨p, hp, _, rfl⟩ := program_of_compile h
  refine ⟨p, hp, fun hne => ?_, fun hlines => ?_⟩
  · have hanswers := answersAs_ofProgram hne (writable_rules hp) o.synthesize
    refine ⟨hanswers, fun set hset => ?_⟩
    obtain ⟨_, rfl⟩ := PolicySet.ofJson_toJson_iff.mp hset
    exact hanswers
  · exact ⟨_, PolicySet.ofJson_toJson (linesFit_ofProgram hp hlines o.synthesize)⟩

/-- Staff may read the document from half past eight on, and may do nothing with it at night. -/
def officeSource : String :=
  "ROLE staff \x7b\x7d USER ann \x7brole:staff\x7d RESOURCE doc \x7b\x7d
ALLOW action:read ON RESOURCE:doc IF (NOT time.hour<8.5)
DENY action:* ON RESOURCE:doc IF (user.role=='staff' AND time.hour>20)"

def officeRequest : Request := ⟨"ann", "READ", "doc"⟩

/-- What is answered to the request at an hour, and the lines of the rules that are listed. -/
def Program.officeAnswer (p : Program) (hour : Nat) : Effect × List Nat :=
  let answer := p.interpret officeRequest {} { year := 2024, month := 1, day := 1, hour := hour }
  (answer.effect, answer.listed.map Rule.line)

/-- In the early morning no rule is listed, in the forenoon one that allows, and at night one that
denies as well. -/
theorem compile_preserves_meaning_office :
    ∃ ir p set, (compile {} officeSource).policySet = some ir ∧
      PolicySet.ofJson ir.toJson = .ok set ∧
      (Engine.load ir).AnswersAs p ∧ (Engine.load set).AnswersAs p ∧
      p.officeAnswer 8 = (.deny, []) ∧ p.officeAnswer 9 = (.allow, [2]) ∧
      p.officeAnswer 21 = (.deny, [2, 3]) := by
  -- one computation, as each of these reads the text
  have hruns : (compile {} officeSource).policySet.isSome = true ∧
      (TokenStream.scan officeSource).1.endLine ≤ greatestLine ∧
      (Program.ofTokens 10 (TokenStream.scan officeSource).1).toOption.map
          (fun q => (q.rules.length, q.officeAnswer 8, q.officeAnswer 9, q.officeAnswer 21)) =
        some (2, (.deny, []), (.allow, [2]), (.deny, [2, 3])) := by
    decide +kernel
  obtain ⟨hsome, hlines, hread⟩ := hruns
  obtain ⟨ir, hir⟩ := Option.isSome_iff_exists.mp hsome
  obtain ⟨p, hp, hanswers, hdecoded⟩ := compile_preserves_meaning hir
  rw [show Program.ofTokens 10 (TokenStream.scan officeSource).1 = .ok p from hp] at hread
  obtain ⟨hlength, hanswer⟩ := Prod.mk.inj (Option.some.inj hread)
  obtain ⟨hearly, hanswer⟩ := Prod.mk.inj hanswer
  obtain ⟨hday, hnight⟩ := Prod.mk.inj hanswer
  have hne : p.rules ≠ [] := by
    rintro hnil
    rw [hnil] at hlength
    cases hlength
  obtain ⟨hload, hloadSet⟩ := hanswers hne
  obtain ⟨set, hset⟩ := hdecoded hlines
  exact ⟨ir, p, set, hir, hset, hload, hloadSet set hset, hearly, hday, hnight⟩

end AccessPolicy
