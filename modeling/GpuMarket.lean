import GpuMarket.ControlPlane.Ledger
import GpuMarket.ControlPlane.Solvency
import GpuMarket.ControlPlane.Settlement
import GpuMarket.ControlPlane.Occupancy
import GpuMarket.ControlPlane.Lifecycle
import GpuMarket.ControlPlane.Payout
import GpuMarket.ControlPlane.Commands
import GpuMarket.ControlPlane.Budgets
import GpuMarket.ControlPlane.Silence
import GpuMarket.Marketplace.Agreement
import GpuMarket.ControlPlane.Evictions
import GpuMarket.ControlPlane.Leases
import GpuMarket.ControlPlane.Stopping
import GpuMarket.ControlPlane.Queue
import GpuMarket.ControlPlane.Reports
import GpuMarket.ControlPlane.SettlementOrder
import GpuMarket.ControlPlane.Enforcement
import GpuMarket.ControlPlane.Atomicity
import GpuMarket.ControlPlane.Secrecy
import GpuMarket.ControlPlane.Offers
import GpuMarket.ControlPlane.Repricing
import GpuMarket.ControlPlane.Prices
import GpuMarket.ControlPlane.Arithmetic
import GpuMarket.ControlPlane.Runway
import GpuMarket.ControlPlane.Ticking
import GpuMarket.Marketplace.Identity
import GpuMarket.ControlPlane.Restarts
import GpuMarket.GpuBench.Gemm
import GpuMarket.GpuBench.Triad
import GpuMarket.HostAgent.Fingerprint
import GpuMarket.HostAgent.Scores
import GpuMarket.HostAgent.Image
import GpuMarket.HostAgent.Workers
import GpuMarket.HostAgent.MacWorker
import GpuMarket.Marketplace.Fleet
import GpuMarket.Marketplace.Endpoints
import GpuMarket.ControlPlane.Errors
import GpuMarket.Marketplace.Calls
import GpuMarket.Marketplace.Lifetime
import GpuMarket.Marketplace.Rest
import GpuMarket.ControlPlane.Undisturbed
import GpuMarket.GpuBench.Verify
