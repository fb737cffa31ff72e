import ExpressEcommerce.Foundation.Program
import ExpressEcommerce.Foundation.Interleaving
import ExpressEcommerce.Foundation.Table
import ExpressEcommerce.Foundation.Marking
import ExpressEcommerce.Foundation.LockOrder
import ExpressEcommerce.Foundation.Snapshot
import ExpressEcommerce.Service.Execution
import ExpressEcommerce.Service.Conduct
import ExpressEcommerce.Orders.Acceptance
import ExpressEcommerce.Orders.Placed
import ExpressEcommerce.Products.Reports
import ExpressEcommerce.Runs.Sequential
import ExpressEcommerce.Runs.Delivered
import ExpressEcommerce.Runs.Footprint
import ExpressEcommerce.Runs.OwnOrder
import ExpressEcommerce.Stock.Conservation
import ExpressEcommerce.Stock.Cancellation
import ExpressEcommerce.Stock.NonNegative
import ExpressEcommerce.Jobs.Stalled
import ExpressEcommerce.Jobs.Forward
import ExpressEcommerce.Access.Writes
import ExpressEcommerce.Access.Reads
import ExpressEcommerce.Caching.Settled
import ExpressEcommerce.Caching.ProductEntries
import ExpressEcommerce.Caching.OrderEntries
import ExpressEcommerce.Caching.Spellings
import ExpressEcommerce.Search.Startup
import ExpressEcommerce.Listings.Orders
import ExpressEcommerce.Items.Totals
import ExpressEcommerce.Checkout.Rules
import ExpressEcommerce.Jobs.Paths
import ExpressEcommerce.Accounts.Owners
import ExpressEcommerce.Accounts.Passwords
import ExpressEcommerce.Accounts.Deletion
import ExpressEcommerce.Secrecy.Disclosure
import ExpressEcommerce.Concurrency.Totals
import ExpressEcommerce.Concurrency.Oversell
import ExpressEcommerce.Concurrency.Committed
import ExpressEcommerce.Concurrency.Deadlock
import ExpressEcommerce.Concurrency.Connections
import ExpressEcommerce.Concurrency.Compatible
import ExpressEcommerce.Search.Mirror
import ExpressEcommerce.Service.Numbers
import ExpressEcommerce.Checkout.Amounts
import ExpressEcommerce.Checkout.Prices
import ExpressEcommerce.Sessions.Authority
import ExpressEcommerce.Accounts.Interleaved
import ExpressEcommerce.Caching.Provenance
import ExpressEcommerce.Jobs.Delivery
