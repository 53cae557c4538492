import MotionExport.Expression.Rewriting
import MotionExport.Proofs.Expression.Rescanning

/-! # Rewriting token by token

A rewriting of expressions is described by a rule about the tokens that are written anew and the
tokens around them. A rewriting follows its rule wherever it applies and keeps all other tokens.
Where no token that the rule writes runs into another one, the tokens of the text that comes out are
the tokens that were written, and where the rule applies to nothing in them, a second run changes
nothing.
-/

namespace MotionExport

namespace Expression

open Token (Stand StopsLike concat scan)

variable {before after out ts : List Token} {t : Token}

/-- Whether the tokens `old` between `before` and `after` are written anew, as the tokens `new`. -/
abbrev Rule := (before old after new : List Token) → Prop

def Rule.AppliesTo (rule : Rule) (before ts : List Token) : Prop :=
  ∃ old after new, ts = old ++ after ∧ rule before old after new

/-- The second row is the first one, with everything that the rule is for written anew and all other
tokens as they were. -/
inductive Rewritten (rule : Rule) : List Token → List Token → List Token → Prop
  | nil {before : List Token} : Rewritten rule before [] []
  | expand {before old after new out : List Token} : rule before old after new →
      Rewritten rule (before ++ old) after out → Rewritten rule before (old ++ after) (new ++ out)
  | keep {before : List Token} {t : Token} {after out : List Token} :
      ¬ rule.AppliesTo before (t :: after) → Rewritten rule (before ++ [t]) after out →
        Rewritten rule before (t :: after) (t :: out)

namespace Rule

def Settled (rule : Rule) : (before ts : List Token) → Prop
  | _, [] => True
  | before, t :: ts => ¬ rule.AppliesTo before (t :: ts) ∧ Settled rule (before ++ [t]) ts

def Settles (rule : Rule) : Prop := ∀ ts out, Rewritten rule [] ts out → rule.Settled [] out

/-- What the rule writes runs neither into what follows nor, more than before, is run into. -/
def KeepsApart (rule : Rule) : Prop :=
  ∀ before old after new out, rule before old after new → Stand (old ++ after) → Stand out →
    StopsLike (concat after) (concat out) →
      Stand (new ++ out) ∧ StopsLike (concat (old ++ after)) (concat (new ++ out))

/-- The step follows the rule at the start of a row, and goes on behind what it has seen. -/
structure Guides (rule : Rule) (step : List Token → List Token → List Token) : Prop where
  consumes {before old after new : List Token} : rule before old after new → old ≠ []
  nil (before : List Token) : step before [] = []
  expand {before old after new : List Token} : rule before old after new →
    step before (old ++ after) = new ++ step (before ++ old) after
  keep {before : List Token} {t : Token} {after : List Token} : Stand (t :: after) →
    ¬ rule.AppliesTo before (t :: after) →
      step before (t :: after) = t :: step (before ++ [t]) after

end Rule

variable {rule : Rule} {step : List Token → List Token → List Token}

theorem Rewritten.stand (hrule : rule.KeepsApart)
    (h : Rewritten rule before ts out) (hts : Stand ts) :
    Stand out ∧ StopsLike (concat ts) (concat out) := by
  induction h with
  | nil => exact ⟨hts, StopsLike.refl _⟩
  | expand hr _ ih =>
    obtain ⟨hout, hstops⟩ := ih hts.of_append
    exact hrule _ _ _ _ _ hr hts hout hstops
  | keep _ _ ih =>
    obtain ⟨hout, hstops⟩ := ih hts.2
    exact ⟨⟨hts.1.stopsLike hstops, hout⟩, hstops.append _⟩

namespace Rule.Guides

theorem rewritten (h : rule.Guides step) (hts : Stand ts) :
    Rewritten rule before ts (step before ts) := by
  -- A rule may take several tokens at once, so the induction is on the length of the row.
  induction hn : ts.length using Nat.strongRecOn generalizing before ts with
  | ind n ih =>
    cases ts with
    | nil =>
      rw [h.nil]
      exact .nil
    | cons t rest =>
      by_cases happlies : rule.AppliesTo before (t :: rest)
      · obtain ⟨old, after, new, heq, hr⟩ := happlies
        have hpos := List.length_pos_iff.mpr (h.consumes hr)
        have hlength : after.length < n := by
          have := congrArg List.length heq
          rw [List.length_append] at this
          omega
        rw [heq] at hts ⊢
        rw [h.expand hr]
        exact .expand hr (ih _ hlength hts.of_append rfl)
      · have hlength : rest.length < n := by
          rw [← hn, List.length_cons]
          omega
        rw [h.keep hts happlies]
        exact .keep happlies (ih _ hlength hts.2 rfl)

theorem stand (h : rule.Guides step) (hapart : rule.KeepsApart) (hts : Stand ts) :
    Stand (step before ts) :=
  ((h.rewritten hts).stand hapart hts).1

theorem eq_of_settled (h : rule.Guides step) (hts : Stand ts) (hsettled : rule.Settled before ts) :
    step before ts = ts := by
  induction ts generalizing before with
  | nil => exact h.nil before
  | cons t ts ih => rw [h.keep hts hsettled.1, ih hts.2 hsettled.2]

end Rule.Guides

/-- The rule is for identifiers that are no members, and writes an identifier first. -/
structure Rule.IsForFree (rule : Rule) : Prop where
  old {before old after new : List Token} : rule before old after new →
    ∃ name rest, old = ⟨.identifier, name⟩ :: rest
  free {before old after new : List Token} : rule before old after new →
    isMember before.getLast? = false
  new {before old after new : List Token} : rule before old after new →
    ∃ name rest, new = ⟨.identifier, name⟩ :: rest

namespace Rule.IsForFree

theorem not_appliesTo (h : rule.IsForFree)
    (ht : t.kind ≠ .identifier ∨ isMember before.getLast? = true) :
    ¬ rule.AppliesTo before (t :: ts) := by
  rintro ⟨old, after, new, heq, hr⟩
  obtain ⟨name, rest, rfl⟩ := h.old hr
  obtain rfl := (List.cons.inj heq).1
  rcases ht with ht | ht
  · exact ht rfl
  · exact Bool.false_ne_true ((h.free hr).symm.trans ht)

variable {us : List Token}

theorem settled_append (h : rule.IsForFree) (hus : ∀ t ∈ us, t.kind ≠ .identifier)
    (hts : rule.Settled (before ++ us) ts) : rule.Settled before (us ++ ts) := by
  induction us generalizing before with
  | nil => rwa [List.append_nil] at hts
  | cons t us ih =>
    rw [List.append_cons] at hts
    obtain ⟨ht, hus⟩ := List.forall_mem_cons.mp hus
    exact ⟨h.not_appliesTo (.inl ht), ih hus hts⟩

theorem eq_append (h : rule.IsForFree) (hus : ∀ t ∈ us, t.kind ≠ .identifier)
    (hts : Rewritten rule before ts (us ++ out)) : ∃ after, ts = us ++ after := by
  induction us generalizing before ts with
  | nil => exact ⟨ts, rfl⟩
  | cons t us ih =>
    obtain ⟨ht, hus⟩ := List.forall_mem_cons.mp hus
    generalize hout : t :: us ++ out = result at hts
    cases hts with
    | nil => cases hout
    | expand hr _ =>
      obtain ⟨name, rest, rfl⟩ := h.new hr
      exact absurd (congrArg Token.kind (List.cons.inj hout).1) ht
    | keep _ hafter =>
      obtain ⟨rfl, rfl⟩ := List.cons.inj hout
      obtain ⟨after, rfl⟩ := ih hus hafter
      exact ⟨after, rfl⟩

end Rule.IsForFree

/-- The function rewrites a text by its tokens: once is enough, and the tokens of the result are
those of the text, rewritten by the rule. -/
structure ActsOnTokens (rule : Rule) (f : Text → Text) : Prop where
  idempotent : ∀ t, f (f t) = f t
  rewritten : ∀ t, Rewritten rule [] (scan t) (scan (f t))

/-- The tokens of the text are those that the step has written. -/
theorem scan_onTokens (hguides : rule.Guides step) (hapart : rule.KeepsApart) (u : Text) :
    scan (onTokens (step []) u) = step [] (scan u) :=
  Token.scan_concat (hguides.stand hapart (Token.stand_scan u))

theorem actsOnTokens (hguides : rule.Guides step) (hapart : rule.KeepsApart)
    (hsettles : rule.Settles) : ActsOnTokens rule (onTokens (step [])) := by
  have hrewritten : ∀ u, Rewritten rule [] (scan u) (scan (onTokens (step []) u)) := by
    intro u
    rw [scan_onTokens hguides hapart]
    exact hguides.rewritten (Token.stand_scan u)
  refine ⟨fun u => ?_, hrewritten⟩
  calc onTokens (step []) (onTokens (step []) u)
      = concat (scan (onTokens (step []) u)) :=
        congrArg concat (hguides.eq_of_settled (Token.stand_scan _) (hsettles _ _ (hrewritten u)))
    _ = onTokens (step []) u := Token.concat_scan _

end Expression

end MotionExport
