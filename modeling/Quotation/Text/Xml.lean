import Quotation.Text.Basic

/-!
# XML text

The three characters that markup reserves are replaced by entities, the ampersand first so that the ampersands of the other entities stay as they are. Escaping one character at a time comes to the same (`escape_eq_flatMap`).
-/

namespace Quotation.Text.Xml

def replace (c : Char) (replacement : Text) (t : Text) : Text := t.flatMap fun d => if d = c then replacement else [d]

def ampersand : Text := ['&', 'a', 'm', 'p', ';']
def lessThan : Text := ['&', 'l', 't', ';']
def greaterThan : Text := ['&', 'g', 't', ';']

def escape (t : Text) : Text := replace '>' greaterThan (replace '<' lessThan (replace '&' ampersand t))

def entity (c : Char) : Text :=
  if c = '&' then ampersand else if c = '<' then lessThan else if c = '>' then greaterThan else [c]

/-- Reads the entities back, from left to right; an ampersand that starts none of them stays. -/
def unescape : Text → Text
  | [] => []
  | '&' :: 'a' :: 'm' :: 'p' :: ';' :: cs => '&' :: unescape cs
  | '&' :: 'l' :: 't' :: ';' :: cs => '<' :: unescape cs
  | '&' :: 'g' :: 't' :: ';' :: cs => '>' :: unescape cs
  | c :: cs => c :: unescape cs

theorem escape_cons (c : Char) (t : Text) : escape (c :: t) = entity c ++ escape t := by
  by_cases ha : c = '&'
  · subst ha; simp [escape, replace, entity, ampersand]
  · by_cases hl : c = '<'
    · subst hl; simp [escape, replace, entity, lessThan]
    · by_cases hg : c = '>'
      · subst hg; simp [escape, replace, entity, greaterThan]
      · simp [escape, replace, entity, ha, hl, hg]

theorem escape_eq_flatMap (t : Text) : escape t = t.flatMap entity := by
  induction t with
  | nil => rfl
  | cons c cs ih => rw [escape_cons, ih, List.flatMap_cons]

end Quotation.Text.Xml
