import Mathlib.Data.List.Induction
import Mathlib.Data.List.TakeWhile
import SettingsBinding.Failure

/-!
Contexts in front of failures. A failure keeps its kind, its cause and its path, however many
contexts are put in front of it one after the other, and its text becomes all the texts in a row,
the last context first. An empty text leaves no trace where only empty texts came before it.
-/

namespace SettingsBinding

namespace Failure

/-- The texts of a chain in a row, the last one in front, without the empty ones at the start. -/
def chained (texts : List String) : String :=
  ": ".intercalate (texts.dropWhile (· = "")).reverse

theorem chained_of_forall_empty {texts : List String} (h : ∀ text ∈ texts, text = "") :
    chained texts = "" := by
  have hdrop : texts.dropWhile (· = "") = [] := by simpa [List.dropWhile_eq_nil_iff] using h
  simp [chained, hdrop]

@[simp] theorem chained_singleton (text : String) : chained [text] = text := by
  by_cases h : text = "" <;> simp [chained, h]

theorem intercalate_reverse_ne_empty {first : String} (h : first ≠ "") (rest : List String) :
    ": ".intercalate (first :: rest).reverse ≠ "" := by
  rw [List.reverse_cons]
  by_cases hrest : rest.reverse = []
  · simpa [hrest] using h
  · rw [String.intercalate_append_of_ne_nil hrest (List.cons_ne_nil _ _)]
    simp [h]

/-- One more context stands in front of the chain, and alone if the chain is empty. -/
theorem chain_chained (context : String) (texts : List String) :
    chain context (chained texts) = chained (texts ++ [context]) := by
  rcases hdrop : texts.dropWhile (· = "") with _ | ⟨first, rest⟩
  · have hempty : ∀ text ∈ texts, text = "" := by
      simpa [List.dropWhile_eq_nil_iff] using hdrop
    rw [chained_of_forall_empty hempty, chain, if_pos rfl, chained, List.dropWhile_append, hdrop]
    exact (chained_singleton context).symm
  · have hfirst : first ≠ "" := by
      have := List.head?_dropWhile_not (· = "") texts
      simpa [hdrop] using this
    have hchained : chained texts = ": ".intercalate (first :: rest).reverse := by
      rw [chained, hdrop]
    have happend : (texts ++ [context]).dropWhile (· = "") = first :: rest ++ [context] := by
      simp [List.dropWhile_append, hdrop]
    rw [hchained, chain, if_neg (intercalate_reverse_ne_empty hfirst rest), chained, happend,
      List.reverse_append, List.reverse_singleton, List.singleton_append,
      String.intercalate_cons_of_ne_nil (by simp)]

def mapText (f : String → String) : Failure → Failure
  | settings text cause => settings (f text) cause
  | model text => model (f text)
  | io path text cause => io path (f text) cause
  | config text => config (f text)
  | cancelled => cancelled

theorem addContext_eq_mapText (failure : Failure) (context : String) :
    failure.addContext context = failure.mapText (chain context) := by
  cases failure <;> rfl

theorem mapText_mapText (failure : Failure) (f g : String → String) :
    (failure.mapText f).mapText g = failure.mapText fun text => g (f text) := by
  cases failure <;> rfl

theorem foldl_addContext (failure : Failure) (contexts : List String) :
    contexts.foldl addContext failure = failure.mapText fun text => chained (text :: contexts) := by
  induction contexts using List.reverseRecOn with
  | nil => cases failure <;> simp [mapText]
  | append_singleton contexts context ih =>
      rw [List.foldl_append, ih, List.foldl_cons, List.foldl_nil, addContext_eq_mapText,
        mapText_mapText]
      simp [chain_chained]

end Failure

/-- A context for a failure: a text, or one that is made when it is needed. -/
inductive Context where
  | given (text : String)
  | made (make : Unit → String)

namespace Context

variable {α : Type}

def text : Context → String
  | given text => text
  | made make => make ()

def addTo : Context → Except Failure α → Except Failure α
  | given text, result => withContext text result
  | made make, result => withContextFrom make result

@[simp] theorem addTo_ok (context : Context) (a : α) : context.addTo (.ok a) = .ok a := by
  cases context <;> rfl

@[simp] theorem addTo_error (context : Context) (failure : Failure) :
    context.addTo (.error failure : Except Failure α) =
      .error (failure.addContext context.text) := by
  cases context <;> rfl

theorem foldl_addTo_error (contexts : List Context) (failure : Failure) :
    contexts.foldl (fun result context => context.addTo result)
        (.error failure : Except Failure α) =
      .error ((contexts.map text).foldl Failure.addContext failure) := by
  induction contexts generalizing failure with
  | nil => rfl
  | cons context contexts ih => simp [ih]

theorem foldl_addTo_ok (contexts : List Context) (a : α) :
    contexts.foldl (fun result context => context.addTo result) (.ok a) = .ok a := by
  induction contexts with
  | nil => rfl
  | cons context contexts ih => simpa using ih

end Context

open Failure in
/-- Contexts that are added to a failure one after the other change its text only, which becomes the
texts of the chain in a row with the last context in front; a request to stop has no text and stays
as it is. A result that is no failure is left alone. -/
theorem contexts_read_outermost_first {α : Type} (contexts : List Context) :
    (∀ failure : Failure,
      contexts.foldl (fun result context => context.addTo result)
          (.error failure : Except Failure α) =
        .error (match failure with
          | .settings s cause => .settings (chained (s :: contexts.map Context.text)) cause
          | .model s => .model (chained (s :: contexts.map Context.text))
          | .io path s cause => .io path (chained (s :: contexts.map Context.text)) cause
          | .config s => .config (chained (s :: contexts.map Context.text))
          | .cancelled => .cancelled)) ∧
      ∀ a : α, contexts.foldl (fun result context => context.addTo result)
        (.ok a : Except Failure α) = .ok a := by
  refine ⟨fun failure => ?_, Context.foldl_addTo_ok contexts⟩
  rw [Context.foldl_addTo_error, Failure.foldl_addContext]
  cases failure <;> rfl

example :
    [Context.given "", .given "in line 3", .made fun _ => "", .given "document a"].foldl
        (fun result context => context.addTo result) (.error (.model "") : Except Failure Unit) =
      .error (.model "document a: : in line 3") := by
  decide

end SettingsBinding
