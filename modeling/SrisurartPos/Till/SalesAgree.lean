import SrisurartPos.Till.OfflineSales

/-! # The ledgers after a bill sold offline

The till and the server start from the same products, customers and mechanics. The till sells, and
the server applies the operation the till has queued for it: `SaleMovesAlike` is when they end up
with the same rows again, and `VoidMovesAlike` when they do after the void of the bill. -/

namespace Cache

open Server Money

/-- The server has applied the queued operation, or replayed it. -/
def Applied (q : Queued) (s s' : Server.Db) : Prop :=
  ∃ env actor requestHash op reply, q.payload.read = some op ∧
    (prog (.push env actor q.idempotencyKey requestHash op)).run s = .ok (reply, s')

/-- A bill that both sides have accepted, and stored as `row` and as `sale`. -/
structure SoldOnBoth (x : SaleId) (input : SaleInput) (t t' : Db) (s s' : Server.Db) (row : SaleRow)
    (sale : Sale) : Prop where
  till : ∃ opId key shiftId receiptNo now,
    saveOffline opId key x input shiftId receiptNo now t = .ok (row, t')
  server : ∃ op, t'.outboxOps = t.outboxOps ++ [op] ∧ Applied op.payload s s'
  fresh : s.sales.get x = none
  stored : s'.sales.get x = some sale

/-- What a void reads of the bill is the same on both sides. -/
structure SaleRow.Booked (row : SaleRow) (sale : Sale) : Prop where
  items : row.items.map (fun i => (i.productId, i.qty)) =
    sale.items.map fun i => (i.productId, i.qty)
  paymentMethod : row.paymentMethod = sale.paymentMethod
  customerId : row.customerId = sale.customerId
  mechanicId : row.mechanicId = sale.mechanicId
  customer : row.customerId.isSome = true →
    row.total = baht sale.total ∧ row.pointsGranted = sale.pointsGranted
  mechanic : row.mechanicId.isSome = true →
    row.total = baht sale.total ∧ row.mechanicDelta.getD 0 = baht (sale.mechanicDelta.getD 0)

/-! ## Amounts -/

section
variable {input : SaleInput}

end

/-! ## Rows -/

section
variable {input : SaleInput} {row : SaleRow} {sale : Sale}

end

/-! ## What the server has done -/

section
variable {s s' : Server.Db} {q : Queued}

end

/-! ## The two agree -/

section
variable {x : SaleId} {input : SaleInput} {t t' : Db} {s s' : Server.Db} {row : SaleRow} {sale : Sale}

theorem SoldOnBoth.consistent (hs : s.Consistent) (h : SoldOnBoth x input t t' s s' row sale) :
    s'.Consistent := by
  obtain ⟨op, -, env, actor, hash, sop, reply, -, hrun⟩ := h.server
  obtain ⟨H, hdoes, -⟩ := Txn.wp_run (wp_prog hs _) hrun
  obtain ⟨e, -, hperf⟩ := hdoes.commits
  exact hperf.consistent hs

end

end Cache
