import Formulary.Cache.Session
import Formulary.Expr.Order
import Formulary.Main
import Formulary.Proofs.Cache.Coherence
import Formulary.Proofs.Cache.Omission
import Formulary.Proofs.Cache.Recency
import Formulary.Proofs.Cache.Sharing
import Formulary.Proofs.Curve.Agreement
import Formulary.Proofs.Curve.Sampling
import Formulary.Proofs.Expr.Faults
import Formulary.Proofs.Expr.Reading
import Formulary.Proofs.Formula.Equality
import Formulary.Proofs.Formula.Records
import Formulary.Proofs.Formula.Substitution
